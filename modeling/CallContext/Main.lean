import CallContext.CommandLine.Run
import CallContext.CommandLine.Usage

namespace CallContext.CommandLine

def absolute (names : List String) : String :=
  "/" ++ Path.ofComponents names

def stations (names : List String) : List String → List (List String)
  | [] => []
  | part :: rest =>
    if Path.isIdle part then stations names rest
    else
      let next := if part = ".." then names.dropLast else names ++ [part]
      next :: stations next rest

def Command.paths : Command → List String
  | .context options => Settings.fileName :: options.diff.toList
  | .trace _ => [Settings.fileName]
  | .stats _ => [Settings.fileName]
  | .init directory _ => [Path.join directory Settings.fileName]
  | .completions _ directory _ => directory.toList

def Command.project? : Command → Option ProjectOptions
  | .context options => some options.project
  | .trace options => some options.project
  | .stats options => some options.project
  | .init _ _ => none
  | .completions _ _ _ => none

mutual

/-- The file or directory at a path as it is now, with everything below it. Symbolic links within
a directory are left out. -/
partial def readTree (path : String) : IO (Option FileTree) := do
  let place := (← IO.currentDir) / path
  if ← place.isDir then
    let mut entries := []
    for entry in (← place.readDir) do
      let wanted := match (← entry.path.symlinkMetadata).type with
        | .file => true
        | .dir => true
        | _ => false
      if wanted then
        if let some tree ← readEntry path entry.fileName then
          entries := (entry.fileName, tree) :: entries
    return some (.directory entries)
  else if ← place.pathExists then
    return some (.file (← IO.FS.readBinFile place).toList)
  else return none

/-- An entry of a directory. Of the files of a repository itself only its ignore file counts. -/
partial def readEntry (directory name : String) : IO (Option FileTree) := do
  let path := directory ++ "/" ++ name
  if name != ".git" then readTree path
  else if ← ((← IO.currentDir) / path).pathExists then
    let exclude ← readTree (path ++ "/info/exclude")
    return some (FileTree.empty.insert ["info", "exclude"] (exclude.getD .empty))
  else return none

end

def addStations (disk : Disk) (path : String) : IO Disk := do
  let start := if Path.isAbsolute path then [] else disk.working
  let mut top := disk.top
  for names in stations start (Path.parts path) do
    let place := (← IO.currentDir) / absolute names
    if (top.at? names).isNone then
      if ← place.isDir then top := top.insert names .empty
      else if ← place.pathExists then
        top := top.insert names (.file (← IO.FS.readBinFile place).toList)
  return { disk with top }

def addProject (disk : Disk) (root : String) : IO Disk := do
  let start := if Path.isAbsolute root then [] else disk.working
  let names := (stations start (Path.parts root)).getLast?.getD start
  let mut top := disk.top
  for count in List.range names.length do
    let above := names.take count
    for name in [".ignore", ".gitignore", ".git"] do
      if let some tree ← readEntry (absolute above) name then
        top := top.insert (above ++ [name]) tree
  if let some tree ← readTree (absolute names) then top := top.insert names tree
  return { disk with top }

def readEnvironment : IO Path.Environment := do
  let block ← try IO.FS.readBinFile "/proc/self/environ" catch _ => pure ByteArray.empty
  let entries := Text.splitAt '\x00' (Text.decodeUtf8 block.toList)
  return entries.filterMap fun entry =>
    (Text.cutFirst '=' entry).map fun (name, value) => (String.ofList name, String.ofList value)

def readSession (command : Command) : IO Session := do
  let environment ← readEnvironment
  let working := Path.components (← IO.currentDir).toString
  let mut disk : Disk := ⟨FileTree.empty.insert working .empty, working⟩
  for path in command.paths do
    if path != "-" then disk ← addStations disk path
  if let some options := command.project? then
    if let some root := Path.expand? environment options.path then
      disk ← addStations disk root
      disk ← addProject disk root
  let readsInput := match command with
    | .context options => options.diff == some "-"
    | _ => false
  let input ← if readsInput then (← IO.getStdin).readBinToEnd else pure ByteArray.empty
  return ⟨disk, environment, input.toList⟩

def writeOutcome (outcome : Outcome) : IO Unit := do
  for path in outcome.written do
    let place := (← IO.currentDir) / path
    if let some directory := place.parent then IO.FS.createDirAll directory
    if let some bytes := outcome.disk.bytes? path then
      IO.FS.writeBinFile place (ByteArray.mk bytes.toArray)
  IO.print outcome.output
  for note in outcome.notes do IO.eprintln note

def perform (arguments : List String) : IO UInt32 := do
  match Invocation.read arguments with
  | .error .help =>
    IO.print programForm.usage
    return 0
  | .error .version =>
    IO.print versionLine
    return 0
  | .error (.misuse error) =>
    IO.eprintln ("error: " ++ error.message ++ "\n\n" ++ programForm.usage)
    return 2
  | .ok invocation =>
    match (← readSession invocation.command).run invocation with
    | .ok outcome =>
      writeOutcome outcome
      return 0
    | .error error =>
      IO.eprintln ("Error: " ++ error.message)
      return UInt32.ofNat error.exitCode

end CallContext.CommandLine

def main (arguments : List String) : IO UInt32 :=
  CallContext.CommandLine.perform arguments
