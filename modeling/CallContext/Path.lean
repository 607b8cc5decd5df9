import CallContext.Text.Blank
import CallContext.Text.Cut
import CallContext.Text.Lines

namespace CallContext.Path

def slashed (text : List Char) : List Char :=
  text.map fun c => if c = '\\' then '/' else c

def dropHere : List Char → List Char
  | '.' :: '/' :: rest => dropHere rest
  | path => path

/-- A path as a person writes it, without spaces around it, backslashes and needless beginnings. -/
def normalize (written : String) : String :=
  String.ofList (dropHere (slashed (Text.trim written.toList)))

def parts (path : String) : List String :=
  (Text.splitAt '/' path.toList).map String.ofList

def components (path : String) : List String :=
  (parts path).filter fun part => !part.isEmpty && part != "."

def isAbsolute (path : String) : Bool :=
  path.toList.head? == some '/'

def ofComponents (components : List String) : String :=
  Text.joinWith "/" components

def join (base path : String) : String :=
  if isAbsolute path || base.isEmpty then path
  else if base.toList.getLast? == some '/' then base ++ path
  else base ++ "/" ++ path

def isIdle (part : String) : Bool :=
  part.isEmpty || part == "."

/-- How a path begins, and the parts after that: at the root, with the mark of the current directory,
or in neither way. -/
def opening (path : String) : Option String × List String :=
  match parts path with
  | "" :: rest => if isAbsolute path then (some "/", rest) else (none, [])
  | "." :: rest => (some ".", rest)
  | all => (none, all)

def dropComponents : List String → List String → Option (List String)
  | [], found => some found
  | wanted :: rest, found =>
    match found.dropWhile isIdle with
    | part :: after => if part = wanted then dropComponents rest after else none
    | [] => none

def dropIdleEnd (found : List String) : List String :=
  (found.reverse.dropWhile isIdle).reverse

/-- The path that leads from a directory to what a path leads to; `none` if that is not below the
directory. -/
def below? (root path : String) : Option String :=
  let (rootStart, rootParts) := opening root
  let (start, found) := opening path
  let wanted := rootParts.filter (!isIdle ·)
  if rootStart.isNone && wanted.isEmpty then
    some ((start.filter (· == "/")).getD "" ++ ofComponents (dropIdleEnd (match start with
      | some "." => "." :: found
      | _ => found)))
  else if rootStart != start then none
  else (dropComponents wanted found).map fun rest =>
    ofComponents (dropIdleEnd (rest.dropWhile isIdle))

/-- The path from a directory to what a path leads to, with slashes only. A path that leads elsewhere
is left as it is. -/
def relative (root path : String) : String :=
  String.ofList (slashed ((below? root path).getD path).toList)

def extensionOf (name : String) : Option String :=
  if name == ".." then none
  else match Text.cutLast '.' name.toList with
    | some (stem, ending) => if stem.isEmpty then none else some (String.ofList ending)
    | none => none

def extension (path : String) : Option String :=
  ((components path).getLast?).bind extensionOf

def lowered (text : String) : String :=
  String.ofList (text.toList.map Char.toLower)

def sameLetters (text other : String) : Bool :=
  lowered text == lowered other

def withoutDots (text : String) : String :=
  String.ofList (text.toList.dropWhile (· == '.'))

/-- Whether the extension of a path is one of the given ones, in small or capital letters and with or
without dots before them. -/
def hasExtension (wanted : List String) (path : String) : Bool :=
  (extension path).any fun ending => wanted.any fun one => sameLetters (withoutDots one) ending

end CallContext.Path
