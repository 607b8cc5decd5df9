import CallContext.Json
import CallContext.Java.SourceFile

namespace CallContext

structure MethodSummary where
  name : String
  annotations : List String
  signature : String
  deriving DecidableEq, Inhabited, Repr

structure ChangedFile where
  path : String
  content : String
  /-- The name of the last type in the file. -/
  typeName : Option String
  annotations : List String
  methods : List MethodSummary
  deriving DecidableEq, Inhabited, Repr

structure RelatedFile where
  path : String
  content : String
  reason : String
  deriving DecidableEq, Inhabited, Repr

structure Context where
  changedFiles : List ChangedFile
  relatedFiles : List RelatedFile
  callChains : List String
  deriving DecidableEq, Inhabited, Repr

namespace ChangedFile

def ofSource (file : Java.SourceFile) (content : String) : ChangedFile where
  path := file.path
  content := content
  typeName := (file.types.getLast?).map (·.name)
  annotations := file.types.flatMap (·.annotations)
  methods := file.types.flatMap fun type => type.methods.map fun method =>
    ⟨method.name, method.annotations, method.signature⟩

end ChangedFile

namespace Json

def ofStrings (texts : List String) : Json :=
  .array (texts.map .string)

/-- The values of the fields with the given names, of an object that has them by name or an array that
has them in order. -/
def fields? (names : List String) : Json → Option (List Json)
  | .object members => some (names.map fun name => ((Json.object members).member? name).getD .null)
  | .array items => if items.length = names.length then some items else none
  | _ => none

def listOf? {α : Type} (read : Json → Option α) (value : Json) : Option (List α) := do
  (← value.array?).mapM read

end Json

namespace MethodSummary

def toJson (method : MethodSummary) : Json :=
  .object [("name", .string method.name), ("annotations", Json.ofStrings method.annotations),
    ("signature", .string method.signature)]

def ofJson? (value : Json) : Option MethodSummary := do
  match ← value.fields? ["name", "annotations", "signature"] with
  | [name, annotations, signature] =>
    return ⟨← name.string?, ← annotations.strings?, ← signature.string?⟩
  | _ => none

end MethodSummary

namespace ChangedFile

def toJson (file : ChangedFile) : Json :=
  .object [("path", .string file.path), ("fullContent", .string file.content),
    ("className", (file.typeName.map Json.string).getD .null),
    ("annotations", Json.ofStrings file.annotations),
    ("methods", .array (file.methods.map (·.toJson)))]

def ofJson? (value : Json) : Option ChangedFile := do
  match ← value.fields? ["path", "fullContent", "className", "annotations", "methods"] with
  | [path, content, typeName, annotations, methods] =>
    let name ← match typeName with
      | .null => some none
      | written => written.string?.map some
    return ⟨← path.string?, ← content.string?, name, ← annotations.strings?,
      ← methods.listOf? MethodSummary.ofJson?⟩
  | _ => none

end ChangedFile

namespace RelatedFile

def toJson (file : RelatedFile) : Json :=
  .object [("path", .string file.path), ("fullContent", .string file.content),
    ("reason", .string file.reason)]

def ofJson? (value : Json) : Option RelatedFile := do
  match ← value.fields? ["path", "fullContent", "reason"] with
  | [path, content, reason] => return ⟨← path.string?, ← content.string?, ← reason.string?⟩
  | _ => none

end RelatedFile

namespace Context

def toJson (context : Context) : Json :=
  .object [("changedFiles", .array (context.changedFiles.map (·.toJson))),
    ("relatedFiles", .array (context.relatedFiles.map (·.toJson))),
    ("callChains", Json.ofStrings context.callChains)]

def ofJson? (value : Json) : Option Context := do
  match ← value.fields? ["changedFiles", "relatedFiles", "callChains"] with
  | [changed, related, chains] =>
    return ⟨← changed.listOf? ChangedFile.ofJson?, ← related.listOf? RelatedFile.ofJson?,
      ← chains.strings?⟩
  | _ => none

end Context

end CallContext
