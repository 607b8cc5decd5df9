import CallContext.Path
import CallContext.Text.Utf8

namespace CallContext

inductive FileTree where
  | file (bytes : List UInt8)
  | directory (entries : List (String × FileTree))
  deriving Inhabited, Repr

/-- A place in a tree: what is there, and the directories above it, innermost first, each with the
name of the entry that leads down. -/
structure Position where
  node : FileTree
  above : List (String × FileTree)

namespace FileTree

def empty : FileTree := .directory []

def child? : FileTree → String → Option FileTree
  | .file _, _ => none
  | .directory entries, name => entries.lookup name

def isDirectory : FileTree → Bool
  | .directory _ => true
  | .file _ => false

def setEntry (name : String) (tree : FileTree) : List (String × FileTree) → List (String × FileTree)
  | [] => [(name, tree)]
  | (other, old) :: rest =>
    if other = name then (name, tree) :: rest else (other, old) :: setEntry name tree rest

def insert : FileTree → List String → FileTree → FileTree
  | _, [], new => new
  | old, name :: rest, new =>
    let entries := match old with
      | .directory entries => entries
      | .file _ => []
    .directory (setEntry name (insert ((entries.lookup name).getD empty) rest new) entries)

def erase : List String → FileTree → FileTree
  | [], _ => empty
  | _, .file bytes => .file bytes
  | [name], .directory entries => .directory (entries.filter (·.1 != name))
  | name :: rest, .directory entries => match entries.lookup name with
    | some old => .directory (setEntry name (erase rest old) entries)
    | none => .directory entries

def at? : FileTree → List String → Option FileTree
  | tree, [] => some tree
  | tree, name :: rest => (tree.child? name).bind (·.at? rest)

end FileTree

namespace Position

def names (position : Position) : List String :=
  (position.above.map (·.1)).reverse

def follow (position : Position) : List String → Option Position
  | [] => some position
  | part :: rest =>
    if !position.node.isDirectory then none
    else if Path.isIdle part then position.follow rest
    else if part = ".." then match position.above with
      -- The top is its own parent.
      | [] => position.follow rest
      | (_, parent) :: above => (⟨parent, above⟩ : Position).follow rest
    else match position.node.child? part with
      | some node => (⟨node, (part, position.node) :: position.above⟩ : Position).follow rest
      | none => none

end Position

/-- A file system: everything below the top, and the names that lead to the working directory. -/
structure Disk where
  top : FileTree
  working : List String
  deriving Inhabited

namespace Disk

def root (disk : Disk) : Position := ⟨disk.top, []⟩

def locate? (disk : Disk) (path : String) : Option Position :=
  if path.isEmpty then none
  else if Path.isAbsolute path then disk.root.follow (Path.parts path)
  else (disk.root.follow disk.working).bind fun start => start.follow (Path.parts path)

def find? (disk : Disk) (path : String) : Option FileTree :=
  (disk.locate? path).map (·.node)

def isDirectory (disk : Disk) (path : String) : Bool :=
  (disk.find? path).any (·.isDirectory)

def bytes? (disk : Disk) (path : String) : Option (List UInt8) :=
  match disk.find? path with
  | some (.file bytes) => some bytes
  | _ => none

def canonical? (disk : Disk) (path : String) : Option String :=
  (disk.locate? path).map fun position => "/" ++ Path.ofComponents position.names

/-- Writes a file into a directory that is there, unless a directory has its name; `none` if that is
not possible. -/
def write? (disk : Disk) (directory name : String) (bytes : List UInt8) : Option Disk := do
  let position ← disk.locate? directory
  if !position.node.isDirectory then none
  if (position.node.child? name).any (·.isDirectory) then none
  return { disk with top := disk.top.insert (position.names ++ [name]) (.file bytes) }

def makeAlong (top : FileTree) (names : List String) : List String → Option FileTree
  | [] => some top
  | part :: rest =>
    if Path.isIdle part then makeAlong top names rest
    else if part = ".." then makeAlong top names.dropLast rest
    else
      let below := names ++ [part]
      match top.at? below with
      | some (.directory _) => makeAlong top below rest
      | some (.file _) => none
      | none => makeAlong (top.insert below .empty) below rest

def makeDirectory? (disk : Disk) (path : String) : Option Disk :=
  (makeAlong disk.top (if Path.isAbsolute path then [] else disk.working) (Path.parts path)).map
    fun top => { disk with top }

end Disk

inductive ReadError where
  | missing (path : String)
  | notRegular (path : String)
  deriving DecidableEq, Repr

namespace ReadError

def message : ReadError → String
  | .missing path => "Failed to read metadata for " ++ path
  | .notRegular path => "not a regular file: " ++ path

end ReadError

structure SourceText where
  text : String
  size : Nat
  deriving DecidableEq, Repr

namespace Disk

def regularFile (disk : Disk) (path : String) : Except ReadError (List UInt8) :=
  match disk.find? path with
  | none => .error (.missing path)
  | some (.directory _) => .error (.notRegular path)
  | some (.file bytes) => .ok bytes

def fileSize (disk : Disk) (path : String) : Except ReadError Nat :=
  (disk.regularFile path).map List.length

def readSource (disk : Disk) (path : String) : Except ReadError SourceText :=
  (disk.regularFile path).map fun bytes => ⟨String.ofList (Text.decodeUtf8 bytes), bytes.length⟩

end Disk

end CallContext
