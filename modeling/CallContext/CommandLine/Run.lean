import CallContext.CallGraph.Dot
import CallContext.CallGraph.Query
import CallContext.CallGraph.Statistics
import CallContext.CallGraph.Trace
import CallContext.CommandLine.Command
import CallContext.Context.Assemble
import CallContext.Context.Render
import CallContext.Json.Printer
import CallContext.Path.Expansion
import CallContext.Settings.Load

/-!
Running commands: what a command finds, what it leaves behind, and why it fails. Errors are found in a
fixed order: what is asked for, the path of the project, its settings, the project, and last the diff.
-/

namespace CallContext.CommandLine

structure Session where
  disk : Disk
  environment : Path.Environment
  input : List UInt8

structure Outcome where
  output : String
  /-- Lines for the person at the terminal, which are no part of the output. -/
  notes : List String := []
  disk : Disk
  written : List String := []

inductive CommandError where
  | request (error : RequestError)
  | expansion (path : String)
  | settings (error : SettingsError)
  | badPattern
  | diffUnreadable (path : String)
  | inputUnreadable
  | trapped (trap : Diff.Trap)
  | noMatch (query : String)
  | settingsExist (path : String)
  | settingsNotWritten
  | noDirectory
  | directoryNotMade (path : String)
  | scriptNotWritten
  deriving DecidableEq, Repr

namespace CommandError

def message : CommandError → String
  | request error => error.message
  | expansion path => "Failed to expand path: " ++ path
  | settings error => error.message
  | badPattern => "Malformed ignore pattern"
  | diffUnreadable path => "Failed to read diff: " ++ path
  | inputUnreadable => "Failed to read diff from stdin"
  | trapped trap => trap.message
  | noMatch query => "No method matches '" ++ query ++ "'"
  | settingsExist path =>
    "Config file already exists at " ++ path ++ ". Use --force to overwrite."
  | settingsNotWritten => "Failed to write config file"
  | noDirectory => "--out-dir is required unless --stdout is set"
  | directoryNotMade path => "create " ++ path
  | scriptNotWritten => "generate completion file"

/-- The exit code: 2 for what is wrong with a request, 101 for a trap, else 1. -/
def exitCode : CommandError → Nat
  | request _ => 2
  | trapped _ => 101
  | _ => 1

end CommandError

def upVariable : String := "CONTEXT_CALL_DEPTH_UP"

def downVariable : String := "CONTEXT_CALL_DEPTH_DOWN"

def bold (text : String) : String :=
  "\x1b[1m" ++ text ++ "\x1b[0m"

namespace Session

def openProject (session : Session) (options : ProjectOptions) : Except CommandError Workspace := do
  let root ← match Path.expand? session.environment options.path with
    | some root => .ok root
    | none => .error (.expansion options.path)
  let settings ← (Settings.load session.disk session.environment (some root)).mapError .settings
  let overloads := options.overloads.getD settings.overloads
  match Workspace.openAt session.disk root { settings with overloads } with
  | .ok workspace => .ok workspace
  | .error (.rootNotFound root) => .error (.request (.rootNotFound root))
  | .error .badPattern => .error .badPattern

def readDiff (session : Session) (path : String) : Except CommandError String :=
  if path = "-" then match Text.readUtf8? session.input with
    | some diff => .ok diff
    | none => .error .inputUnreadable
  else match (session.disk.bytes? path).bind Text.readUtf8? with
    | some diff => .ok diff
    | none => .error (.diffUnreadable path)

def changedMethods (session : Session) (workspace : Workspace) (given : Option ChangedMethods)
    (diff : Option String) (changedFiles : List String) :
    Except CommandError (Option ChangedMethods) :=
  match given, diff with
  | some methods, _ => .ok (some methods)
  | none, some path => do
    let text ← session.readDiff path
    let methods ← (workspace.changedMethods session.disk text changedFiles).mapError .trapped
    return some methods
  | none, none => .ok none

def printed (session : Session) (output : String) (notes : List String := []) : Outcome :=
  { output, notes, disk := session.disk }

def assemble (session : Session) (options : ContextOptions) : Except CommandError Outcome := do
  let changedFiles ← (Request.parseChangedFiles options.changedFiles).mapError .request
  let given ← options.changedMethods.mapM fun written =>
    (Request.parseChangedMethods written).mapError CommandError.request
  let workspace ← session.openProject options.project
  let changedMethods ← session.changedMethods workspace given options.diff changedFiles
  let depth (flag : Option Nat) (name : String) (fallback : Nat) : Nat :=
    Request.pickDepth flag (session.environment.lookup name) fallback
  let settings := workspace.settings
  let context := Context.assemble workspace session.disk
    { changedFiles, changedMethods
      up := depth options.up upVariable settings.up
      down := depth options.down downVariable settings.down
      style := options.style }
  return session.printed (match options.format with
    | .json => context.toJson.pretty ++ "\n"
    | .text => context.renderWithin (options.maxTokens.getD settings.maxContextTokens)
      (TokenCounter.forModel settings.model))

def trace (session : Session) (flags : Flags) (options : TraceOptions) :
    Except CommandError Outcome := do
  let graph := (← session.openProject options.project).graph
  let found := graph.find options.query
  if found.isEmpty then .error (.noMatch options.query)
  else
    let note := toString found.length ++ " methods match '" ++ options.query ++ "'"
    return session.printed
      (String.join (found.map fun id => (graph.trace id options.up options.down).render (!flags.plain)))
      (if 1 < found.length && !flags.quiet then [note] else [])

def summarize (session : Session) (flags : Flags) (options : StatsOptions) :
    Except CommandError Outcome := do
  let workspace ← session.openProject options.project
  if options.dot then return session.printed (workspace.graph.dot ++ "\n")
  let title := "Call graph for " ++ workspace.root
  return session.printed ((if flags.plain then title else bold title) ++ "\n" ++
    (workspace.graph.statistics options.top).render)

def writeSettings (session : Session) (flags : Flags) (directory : String) (force : Bool) :
    Except CommandError Outcome :=
  let path := Path.join directory Settings.fileName
  if (session.disk.find? path).isSome && !force then .error (.settingsExist path)
  else match session.disk.write? directory Settings.fileName (Settings.render {}).toUTF8.toList with
    | none => .error .settingsNotWritten
    | some disk => .ok
      { output := if flags.quiet then "" else "Created config file at " ++ path ++ "\n"
        disk
        written := [path] }

def complete (session : Session) (flags : Flags) (shell : Shell) (directory : Option String)
    (toOutput : Bool) : Except CommandError Outcome :=
  let script := shell.script programName (programForm.commands.map (·.name))
  if toOutput then .ok (session.printed script)
  else match directory with
    | none => .error .noDirectory
    | some directory =>
      let name := shell.scriptName programName
      match session.disk.makeDirectory? directory with
      | none => .error (.directoryNotMade directory)
      | some made => match made.write? directory name script.toUTF8.toList with
        | none => .error .scriptNotWritten
        | some disk =>
          let path := Path.join directory name
          .ok
            { output := ""
              notes := if flags.quiet then [] else ["Wrote completion to " ++ path]
              disk
              written := [path] }

def run (session : Session) (invocation : Invocation) : Except CommandError Outcome :=
  let flags := invocation.flags
  match invocation.command with
  | .context options => session.assemble options
  | .trace options => session.trace flags options
  | .stats options => session.summarize flags options
  | .init directory force => session.writeSettings flags directory force
  | .completions shell directory toOutput => session.complete flags shell directory toOutput

end Session

end CallContext.CommandLine
