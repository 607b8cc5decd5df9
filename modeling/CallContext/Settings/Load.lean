import CallContext.Collection.Table
import CallContext.FileTree
import CallContext.Settings
import CallContext.Text.Decimal
import CallContext.Toml.Document

/-!
Loading settings: the settings file of the project or of the working directory, and above it
variables of the environment. Values are converted where their meaning is plain: a number may be
written as text, and a text as a number.
-/

namespace CallContext

inductive SettingsError where
  | malformed
  | wrongType
  deriving DecidableEq, Repr

def SettingsError.message : SettingsError → String
  | .malformed => "Failed to load configuration"
  | .wrongType => "Failed to parse configuration"

namespace Toml

def wordNumber? (word : String) : Option Nat :=
  if ["true", "on", "yes"].contains (Path.lowered word) then some 1
  else if ["false", "off", "no"].contains (Path.lowered word) then some 0
  else Text.readNumber word.toList

def asNat? : Toml → Option Nat
  | .integer value => if 0 ≤ value then some value.toNat else none
  | .float value => some (Text.Decimal.toNumber value)
  | .boolean value => some (if value then 1 else 0)
  | .string text => wordNumber? text
  | .moment text => wordNumber? text
  | .array _ => none
  | .table _ => none

def asText? : Toml → Option String
  | .string text => some text
  | .moment text => some text
  | .integer value => some (toString value)
  | .float value => some (Text.Decimal.write value)
  | .boolean value => some (if value then "true" else "false")
  | .array _ => none
  | .table _ => none

def asTexts? : Toml → Option (List String)
  | .array items => items.mapM asText?
  | _ => none

def asPolicy? : Toml → Option OverloadPolicy
  | .string text => OverloadPolicy.ofName? (Path.lowered text)
  | .moment text => OverloadPolicy.ofName? (Path.lowered text)
  | .table [(name, _)] => OverloadPolicy.ofName? (Path.lowered name)
  | _ => none

end Toml

namespace Settings

def set (settings : Settings) (name : String) (value : Toml) : Option Settings :=
  match name with
  | "source_root" => value.asText?.map fun text => { settings with sourceRoot := text }
  | "extensions" => value.asTexts?.map fun texts => { settings with extensions := texts }
  | "ignore_patterns" => value.asTexts?.map fun texts => { settings with ignorePatterns := texts }
  | "max_related_files" => value.asNat?.map fun count => { settings with maxRelatedFiles := count }
  | "max_file_size" => value.asNat?.map fun size => { settings with maxFileSize := size }
  | "max_call_chains" => value.asNat?.map fun count => { settings with maxCallChains := count }
  | "up_depth" => value.asNat?.map fun depth => { settings with up := depth }
  | "down_depth" => value.asNat?.map fun depth => { settings with down := depth }
  | "overloads" => value.asPolicy?.map fun policy => { settings with overloads := policy }
  | "max_context_tokens" => value.asNat?.map fun count => { settings with maxContextTokens := count }
  | "model" => value.asText?.map fun text => { settings with model := text }
  | _ => some settings

def variableStart : List Char := "callscope_".toList

/-- The settings whose variables hold lists with commas. -/
def listNames : List String := ["extensions", "ignore_patterns"]

def readInteger (text : List Char) : Option Int :=
  let (negative, digits) := Text.Decimal.splitSign text
  if digits.isEmpty || !digits.all Char.isDigit then none
  else
    let magnitude : Int := Text.Decimal.digitsValue digits
    let value := if negative then -magnitude else magnitude
    if -(Text.signedBound : Int) ≤ value && value < Text.signedBound then some value else none

def variableValue (name text : String) : Toml :=
  if Path.lowered text == "true" then .boolean true
  else if Path.lowered text == "false" then .boolean false
  else match readInteger text.toList with
    | some value => .integer value
    | none => match Text.Decimal.read? text.toList with
      | some value => .float value
      | none =>
        if listNames.contains name then
          .array ((Text.splitAt ',' text.toList).map fun item => .string (String.ofList item))
        else .string text

def variableEntry (name text : String) : Option (String × Toml) :=
  (Text.dropStart? variableStart (Path.lowered name).toList).map fun rest =>
    (String.ofList rest, variableValue (String.ofList rest) text)

def ofEntries (entries : List (String × Toml)) : Except SettingsError Settings :=
  let table : Table String Toml :=
    entries.foldl (fun table entry => table.put entry.1 entry.2) Table.empty
  match table.toList.foldlM (fun settings (name, value) => settings.set name value)
      ({} : Settings) with
  | some settings => .ok settings
  | none => .error .wrongType

def ofSources (file : Option String) (environment : List (String × String)) :
    Except SettingsError Settings :=
  match (file.map Toml.parse?).getD (some []) with
  | none => .error .malformed
  | some entries =>
    -- The environment comes last, so what it says counts.
    ofEntries (entries ++ environment.filterMap fun (name, text) => variableEntry name text)

/-- The text of the settings file: the one in the root of the project if there is one, else the one in
the working directory. -/
def fileText (disk : Disk) (root : Option String) : Option String :=
  let candidates := (root.toList.map fun directory => Path.join directory fileName) ++ [fileName]
  (candidates.findSome? disk.bytes?).map fun bytes => String.ofList (Text.decodeUtf8 bytes)

def load (disk : Disk) (environment : List (String × String)) (root : Option String) :
    Except SettingsError Settings :=
  ofSources (fileText disk root) environment

end Settings

end CallContext
