import CallContext.CallGraph.Related
import CallContext.Context
import CallContext.Request
import CallContext.Workspace

/-!
Assembling the context that a request asks for. Changed files are read as they are now; what is around
them comes from the call graph of the opened project.
-/

namespace CallContext

namespace Workspace

def textOf (workspace : Workspace) (disk : Disk) (path : String) : Option String :=
  ((disk.readSource (Path.join workspace.root path)).toOption).map (·.text)

def changedMethods (workspace : Workspace) (disk : Disk) (diff : String) (files : List String) :
    Except Diff.Trap ChangedMethods :=
  Diff.scan (workspace.textOf disk) diff files

def seedsOf (policy : OverloadPolicy) (file : Java.SourceFile) (names : Option (List String)) :
    List MethodId :=
  ((file.types.flatMap fun type => (type.methods.filter fun method =>
    names.all (·.contains method.name)).map fun method =>
      MethodId.declared policy type.fqn method)).eraseDups

def changedFile? (workspace : Workspace) (disk : Disk) (path : String) :
    Option (Java.SourceFile × String) := do
  if !Path.hasExtension workspace.settings.extensions path then none
  let text ← workspace.textOf disk path
  let file ← (Java.SourceFile.parse path text).toOption
  return (file, text)

/-- The file that declares a method near a changed file, unless it is one of the changed files itself
or its text has not been kept. -/
def relatedFile? (workspace : Workspace) (request : Request) (path : String) (id : MethodId) :
    Option RelatedFile := do
  let location ← workspace.graph.location id
  if location.path = path ∨ location.path ∈ request.changedFiles then none
  let content ← (← workspace.index.file? location.path).content
  return ⟨location.path, content, "call-chain related to " ++ path⟩

end Workspace

namespace Context

def addRelated (limit : Nat) (added : List RelatedFile) : List RelatedFile → List RelatedFile
  | [] => added
  | file :: rest =>
    if limit ≤ added.length then added
    else if added.any (·.path == file.path) then addRelated limit added rest
    else addRelated limit (added ++ [file]) rest

def addChains (chains more : List String) : List String :=
  (chains ++ more).eraseDups

def addFile (workspace : Workspace) (disk : Disk) (request : Request) (context : Context)
    (path : String) : Context :=
  match workspace.changedFile? disk path with
  | none => context
  | some (file, text) =>
    let seeds := Workspace.seedsOf workspace.settings.overloads file (request.namesFor path)
    let changedFiles := context.changedFiles ++ [ChangedFile.ofSource file text]
    if !workspace.resolver.isAvailable || seeds.isEmpty then { context with changedFiles }
    else
      -- Chains lead to all methods nearby, also to those whose files are not shown.
      let related := workspace.graph.related seeds request.up request.down
      let chains := workspace.graph.chains seeds related request.up request.down request.style
        workspace.settings.maxCallChains
      { changedFiles
        relatedFiles := addRelated workspace.settings.maxRelatedFiles context.relatedFiles
          (related.filterMap (workspace.relatedFile? request path))
        callChains := addChains context.callChains chains }

def assemble (workspace : Workspace) (disk : Disk) (request : Request) : Context :=
  let full := request.changedFiles.foldl (addFile workspace disk request) ⟨[], [], []⟩
  { full with callChains := full.callChains.take workspace.settings.maxCallChains }

end Context

end CallContext
