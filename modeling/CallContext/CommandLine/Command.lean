import CallContext.CallGraph.Chains
import CallContext.CommandLine.Completion
import CallContext.CommandLine.Grammar
import CallContext.Settings

namespace CallContext

def ChainStyle.name : ChainStyle → String
  | .pair => "pair"
  | .path => "path"

def ChainStyle.ofName? (name : String) : Option ChainStyle :=
  [ChainStyle.pair, .path].find? (·.name == name)

namespace CommandLine

inductive OutputFormat where
  | json
  | text
  deriving DecidableEq, Inhabited, Repr

namespace OutputFormat

def name : OutputFormat → String
  | json => "json"
  | text => "text"

def ofName? (name : String) : Option OutputFormat :=
  [json, text].find? (·.name == name)

end OutputFormat

structure ProjectOptions where
  path : String
  overloads : Option OverloadPolicy
  deriving DecidableEq, Repr

structure ContextOptions where
  project : ProjectOptions
  changedFiles : String
  changedMethods : Option String
  /-- The file with a diff, or a dash for the input. -/
  diff : Option String
  up : Option Nat
  down : Option Nat
  format : OutputFormat
  maxTokens : Option Nat
  style : ChainStyle
  deriving DecidableEq, Repr

structure TraceOptions where
  project : ProjectOptions
  query : String
  up : Nat
  down : Nat
  deriving DecidableEq, Repr

structure StatsOptions where
  project : ProjectOptions
  dot : Bool
  top : Nat
  deriving DecidableEq, Repr

inductive Command where
  | context (options : ContextOptions)
  | trace (options : TraceOptions)
  | stats (options : StatsOptions)
  | init (directory : String) (force : Bool)
  | completions (shell : Shell) (directory : Option String) (toOutput : Bool)
  deriving DecidableEq, Repr

structure Flags where
  plain : Bool
  quiet : Bool
  verbose : Bool
  deriving DecidableEq, Repr

structure Invocation where
  flags : Flags
  command : Command
  deriving DecidableEq, Repr

def programName : String := "callscope"

def version : String := "0.1.0"

def versionLine : String := programName ++ " " ++ version ++ "\n"

/-- The options that are accepted before and after the name of a command. -/
def sharedOptions : List OptionForm :=
  [{ name := "no-color", kind := .flag },
    { name := "quiet", kind := .flag },
    { name := "verbose", letter := some 'v', kind := .flag },
    { name := "help", letter := some 'h', kind := .halt .help }]

def valued (name : String) (form : ValueForm) : OptionForm :=
  { name, kind := .value form }

def projectOptions : List OptionForm :=
  [valued "repo-path" .path,
    valued "overloads" (.choice ([OverloadPolicy.merge, .distinguish].map (·.name)))]

def contextForm : CommandForm where
  name := "context"
  options := sharedOptions ++ projectOptions ++
    [valued "changed-files" .text, valued "changed-methods" .text, valued "diff" .path,
      valued "up-depth" .number, valued "down-depth" .number,
      valued "format" (.choice ([OutputFormat.json, .text].map (·.name))),
      valued "max-tokens" .number,
      valued "chain-style" (.choice ([ChainStyle.pair, .path].map (·.name)))]
  required := ["repo-path", "changed-files"]
  exclusive := [("changed-methods", "diff")]

def traceForm : CommandForm where
  name := "trace"
  options := sharedOptions ++ projectOptions ++
    [valued "up-depth" .number, valued "down-depth" .number]
  operands := [("METHOD", .text)]
  required := ["repo-path", "METHOD"]

def statsForm : CommandForm where
  name := "stats"
  options := sharedOptions ++ projectOptions ++
    [{ name := "dot", kind := .flag }, valued "top" .number]
  required := ["repo-path"]

def initForm : CommandForm where
  name := "init"
  options := sharedOptions ++ [{ name := "force", kind := .flag }]
  operands := [("PATH", .path)]

def completionsForm : CommandForm where
  name := "completions"
  options := sharedOptions ++ [valued "out-dir" .path, { name := "stdout", kind := .flag }]
  operands := [("SHELL", .choice (Shell.all.map (·.name)))]
  required := ["SHELL"]

def programForm : ProgramForm where
  options := sharedOptions ++
    [{ name := "version", letter := some 'V', kind := .halt .version }]
  commands := [contextForm, traceForm, statsForm, initForm, completionsForm]

namespace Given

def number? (given : Given) (name : String) : Option Nat :=
  (given.get? name).bind fun written => Text.readNumber written.toList

def project (given : Given) : ProjectOptions where
  path := (given.get? "repo-path").getD ""
  overloads := (given.get? "overloads").bind OverloadPolicy.ofName?

def command? (given : Given) (name : String) : Option Command :=
  match name with
  | "context" => some (.context
    { project := project given
      changedFiles := (given.get? "changed-files").getD ""
      changedMethods := given.get? "changed-methods"
      diff := given.get? "diff"
      up := number? given "up-depth"
      down := number? given "down-depth"
      format := ((given.get? "format").bind OutputFormat.ofName?).getD .json
      maxTokens := number? given "max-tokens"
      style := ((given.get? "chain-style").bind ChainStyle.ofName?).getD .pair })
  | "trace" => some (.trace
    { project := project given
      query := (given.get? "METHOD").getD ""
      up := (number? given "up-depth").getD 3
      down := (number? given "down-depth").getD 3 })
  | "stats" => some (.stats
    { project := project given
      dot := given.contains "dot"
      top := (number? given "top").getD 10 })
  | "init" => some (.init ((given.get? "PATH").getD ".") (given.contains "force"))
  | "completions" => ((given.get? "SHELL").bind Shell.ofName?).map fun shell =>
    .completions shell (given.get? "out-dir") (given.contains "stdout")
  | _ => none

end Given

def Invocation.read (arguments : List String) : Except Halt Invocation := do
  let chosen ← programForm.read arguments
  let isOn (name : String) : Bool := chosen.own.contains name || chosen.given.contains name
  match Given.command? chosen.given chosen.command with
  | some command => .ok ⟨⟨isOn "no-color", isOn "quiet", isOn "verbose"⟩, command⟩
  | none => .error (.misuse (.unknownCommand chosen.command))

end CommandLine

end CallContext
