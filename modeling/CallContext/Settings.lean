import CallContext.Json
import CallContext.Resolution.Overloads

namespace CallContext

structure Settings where
  sourceRoot : String := "src/main/java"
  extensions : List String := ["java"]
  /-- Globs for what is left out, from the directory of the sources. -/
  ignorePatterns : List String := []
  maxRelatedFiles : Nat := 10
  /-- The size in bytes from which on files are not shown. -/
  maxFileSize : Nat := 500 * 1024
  maxCallChains : Nat := 20
  up : Nat := 2
  down : Nat := 2
  overloads : OverloadPolicy := .merge
  maxContextTokens : Nat := 20000
  /-- The model or encoding in whose tokens the budget is counted. -/
  model : String := "gpt-4o"
  deriving DecidableEq, Repr

instance : Inhabited Settings := ⟨{}⟩

def OverloadPolicy.name : OverloadPolicy → String
  | .merge => "merge"
  | .distinguish => "distinguish"

def OverloadPolicy.ofName? (name : String) : Option OverloadPolicy :=
  [OverloadPolicy.merge, .distinguish].find? (·.name == name)

namespace Settings

def fileName : String := "callscope.toml"

def quoted (text : String) : String :=
  "\"" ++ String.ofList (text.toList.flatMap fun c =>
    if c == '"' || c == '\\' then ['\\', c] else [c]) ++ "\""

def quotedList (texts : List String) : String :=
  "[" ++ Text.joinWith ", " (texts.map quoted) ++ "]"

def render (settings : Settings) : String :=
  String.join ([("source_root", quoted settings.sourceRoot),
    ("extensions", quotedList settings.extensions),
    ("ignore_patterns", quotedList settings.ignorePatterns),
    ("max_related_files", toString settings.maxRelatedFiles),
    ("max_file_size", toString settings.maxFileSize),
    ("max_call_chains", toString settings.maxCallChains),
    ("up_depth", toString settings.up),
    ("down_depth", toString settings.down),
    ("overloads", quoted settings.overloads.name),
    ("max_context_tokens", toString settings.maxContextTokens),
    ("model", quoted settings.model)].map fun (key, value) => key ++ " = " ++ value ++ "\n")

/-- The settings with one of them set from JSON; `none` if the value has the wrong type. Unknown names
change nothing. -/
def setJson (settings : Settings) (name : String) (value : Json) : Option Settings :=
  match name with
  | "source_root" => value.string?.map fun text => { settings with sourceRoot := text }
  | "extensions" => value.strings?.map fun texts => { settings with extensions := texts }
  | "ignore_patterns" => value.strings?.map fun texts => { settings with ignorePatterns := texts }
  | "max_related_files" => value.nat?.map fun count => { settings with maxRelatedFiles := count }
  | "max_file_size" => value.nat?.map fun size => { settings with maxFileSize := size }
  | "max_call_chains" => value.nat?.map fun count => { settings with maxCallChains := count }
  | "up_depth" => value.nat?.map fun depth => { settings with up := depth }
  | "down_depth" => value.nat?.map fun depth => { settings with down := depth }
  | "overloads" => (value.string?.bind OverloadPolicy.ofName?).map fun policy =>
      { settings with overloads := policy }
  | "max_context_tokens" => value.nat?.map fun count => { settings with maxContextTokens := count }
  | "model" => value.string?.map fun text => { settings with model := text }
  | _ => some settings

def ofJson? (value : Json) : Option Settings :=
  value.object?.bind fun members =>
    members.foldlM (fun settings (name, member) => settings.setJson name member) {}

end Settings

end CallContext
