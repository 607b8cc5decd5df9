import CallContext.Text.Cut

namespace CallContext.Name

def join (separator : Char) (parts : List String) : String :=
  Text.joinWith (String.singleton separator) (parts.filter (!·.isEmpty))

def simpleName (name : String) : String :=
  match Text.cutLast '.' name.toList with
  | some (_, last) => String.ofList last
  | none => name

def splitHead (name : String) : Option (String × String) :=
  (Text.cutFirst '.' name.toList).map fun (head, rest) => (String.ofList head, String.ofList rest)

def splitLast (name : String) : Option (String × String) :=
  (Text.cutLast '.' name.toList).map fun (owner, last) => (String.ofList owner, String.ofList last)

def member (owner name : String) : String :=
  owner ++ "." ++ name

def qualifier? (name last : String) : Option String :=
  (Text.dropEnd? ('.' :: last.toList) name.toList).map String.ofList

end CallContext.Name
