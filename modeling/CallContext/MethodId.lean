import CallContext.Name

namespace CallContext

/-- The identity of a method: the fully qualified name of the type that declares it, its name, and,
where overloads are told apart, its erased parameter types. -/
structure MethodId where
  owner : String
  name : String
  parameters : Option String
  deriving DecidableEq, Inhabited, Repr

structure Location where
  path : String
  line : Nat
  deriving DecidableEq, Inhabited, Repr

namespace MethodId

def key (id : MethodId) : String :=
  match id.parameters with
  | some list => id.owner ++ "#" ++ id.name ++ "(" ++ list ++ ")"
  | none => id.owner ++ "#" ++ id.name

def parseMember (owner : String) (text : List Char) : Option MethodId :=
  match Text.cutFirst '(' text with
  | some (name, list) => (Text.dropEnd? [')'] list).map fun parameters =>
      ⟨owner, String.ofList name, some (String.ofList parameters)⟩
  | none => some ⟨owner, String.ofList text, none⟩

def parseKey (key : String) : Option MethodId :=
  match Text.cutFirst '#' key.toList with
  | some (owner, text) =>
    if owner.isEmpty || text.isEmpty then none else parseMember (String.ofList owner) text
  | none => none

def displayName (id : MethodId) : String :=
  Name.simpleName id.owner ++ "." ++ id.name ++ "()"

/-- The order of parameter lists: the absent one comes first. -/
def compareParameters : Option String → Option String → Ordering
  | none, none => .eq
  | none, some _ => .lt
  | some _, none => .gt
  | some a, some b => compare a b

protected def compare (a b : MethodId) : Ordering :=
  ((compare a.owner b.owner).then (compare a.name b.name)).then
    (compareParameters a.parameters b.parameters)

end MethodId

end CallContext
