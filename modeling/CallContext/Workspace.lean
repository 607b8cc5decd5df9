import CallContext.CallGraph.Build
import CallContext.FileTree.Walk
import CallContext.Settings

namespace CallContext

structure Workspace where
  root : String
  settings : Settings
  index : SourceIndex
  resolver : Resolver
  graph : CallGraph

inductive OpenError where
  | rootNotFound (root : String)
  | badPattern
  deriving DecidableEq, Repr

namespace Workspace

def sourcePath (root : String) (settings : Settings) : String :=
  Path.join root settings.sourceRoot

def resolverFor (disk : Disk) (root : String) (settings : Settings) : Resolver :=
  if disk.isDirectory (sourcePath root settings) then .available settings.overloads
  else .unavailable ("source root " ++ sourcePath root settings ++ " does not exist")

/-- The source file at a path, unless it is not Java. Files of the maximal size or more are indexed
without their text. -/
def readFile (disk : Disk) (root : String) (settings : Settings) (path : String) :
    Option Java.SourceFile := do
  let source ← (disk.readSource path).toOption
  let file ← (Java.SourceFile.parse (Path.relative root path) source.text).toOption
  return { file with
    size := source.size
    content := if settings.maxFileSize ≤ source.size then none else file.content }

def sourcePaths (disk : Disk) (root : String) (settings : Settings) : Option (List String) :=
  let source := sourcePath root settings
  if disk.isDirectory source then
    (Walker.ofPatterns? settings.ignorePatterns settings.extensions).map fun walker =>
      (walker.walkFrom disk source).map fun names => Path.join source (Path.ofComponents names)
  else some []

def openAt (disk : Disk) (root : String) (settings : Settings) : Except OpenError Workspace :=
  match (disk.locate? root).filter (·.node.isDirectory) with
  | none => .error (.rootNotFound root)
  | some position =>
    let canonical := "/" ++ Path.ofComponents position.names
    let resolver := resolverFor disk canonical settings
    match sourcePaths disk canonical settings with
    | none => .error .badPattern
    | some paths =>
      -- Files that cannot be read or parsed are left out; they are no reason to fail.
      let index := SourceIndex.ofFiles (paths.filterMap (readFile disk canonical settings))
      .ok
        { root := canonical
          settings
          index
          resolver
          graph := CallGraph.build index resolver settings.overloads }

def reopen (workspace : Workspace) (disk : Disk) : Except OpenError Workspace :=
  openAt disk workspace.root workspace.settings

end Workspace

end CallContext
