import CallContext.Proofs.CallGraph.Queue
import CallContext.Proofs.Context.RelatedFiles

/-!
The caps of a context. Fewer related files or call chains than another run may show are the first ones
of that run, and nothing else of the context depends on the caps.

The chains are capped for every changed file before they are merged. The first distinct items of a
concatenation only depend on the first distinct items of its parts, so that cap takes nothing away.
-/

namespace CallContext

open Collection Java

def Settings.withCaps (settings : Settings) (relatedFiles callChains : Nat) : Settings :=
  { settings with maxRelatedFiles := relatedFiles, maxCallChains := callChains }

namespace CallGraph

def allChains (graph : CallGraph) (seeds wanted : List MethodId) (up down : Nat)
    (style : ChainStyle) : List String :=
  ((seeds.flatMap (graph.waysOf wanted up down)).map style.render).eraseDups

theorem chains_eq_take (graph : CallGraph) (seeds wanted : List MethodId) (up down : Nat)
    (style : ChainStyle) (cap : Nat) :
    graph.chains seeds wanted up down style cap =
      (graph.allChains seeds wanted up down style).take cap :=
  rfl

theorem nodup_allChains (graph : CallGraph) (seeds wanted : List MethodId) (up down : Nat)
    (style : ChainStyle) : (graph.allChains seeds wanted up down style).Nodup :=
  nodup_eraseDups _

theorem allChains_nil_wanted (graph : CallGraph) (seeds : List MethodId) (up down : Nat)
    (style : ChainStyle) : graph.allChains seeds [] up down style = [] := by
  have none : seeds.flatMap (graph.waysOf [] up down) = [] := by
    simp [List.flatMap_eq_nil_iff, waysOf_eq_map_trails]
  rw [allChains, none]
  rfl

end CallGraph

namespace Workspace

def withCaps (workspace : Workspace) (relatedFiles callChains : Nat) : Workspace :=
  { workspace with settings := workspace.settings.withCaps relatedFiles callChains }

theorem openAt_withCaps (disk : Disk) (root : String) (settings : Settings)
    (relatedFiles callChains : Nat) :
    openAt disk root (settings.withCaps relatedFiles callChains) =
      (openAt disk root settings).map (·.withCaps relatedFiles callChains) := by
  unfold openAt
  cases (disk.locate? root).filter (·.node.isDirectory) with
  | none => rfl
  | some position =>
      have paths : sourcePaths disk ("/" ++ Path.ofComponents position.names)
          (settings.withCaps relatedFiles callChains) =
            sourcePaths disk ("/" ++ Path.ofComponents position.names) settings := rfl
      dsimp only
      rw [paths]
      cases sourcePaths disk ("/" ++ Path.ofComponents position.names) settings with
      | none => rfl
      | some found => rfl

def chainsFrom (workspace : Workspace) (disk : Disk) (request : Request) (changed : String) :
    List String :=
  match workspace.changedFile? disk changed with
  | none => []
  | some (file, _) =>
    workspace.graph.allChains
      (seedsOf workspace.settings.overloads file (request.namesFor changed))
      (workspace.nearby disk request changed) request.up request.down request.style

theorem nodup_chainsFrom (workspace : Workspace) (disk : Disk) (request : Request)
    (changed : String) : (workspace.chainsFrom disk request changed).Nodup := by
  unfold chainsFrom
  split
  · exact List.nodup_nil
  · exact CallGraph.nodup_allChains _ _ _ _ _ _

end Workspace

namespace Context

variable {workspace : Workspace} {disk : Disk} {request : Request}

theorem callChains_addFile {context : Context} (nodup : context.callChains.Nodup)
    (changed : String) :
    (addFile workspace disk request context changed).callChains =
      (context.callChains ++ (workspace.chainsFrom disk request changed).take
        workspace.settings.maxCallChains).eraseDups := by
  unfold addFile Workspace.chainsFrom
  cases accepted : workspace.changedFile? disk changed with
  | none => rw [List.take_nil, List.append_nil, eraseDups_of_nodup nodup]
  | some found =>
      obtain ⟨file, text⟩ := found
      dsimp only
      rw [Workspace.nearby_of_changedFile?_eq_some accepted]
      by_cases stopped : !workspace.resolver.isAvailable ||
          (Workspace.seedsOf workspace.settings.overloads file (request.namesFor changed)).isEmpty
      · rw [if_pos stopped, if_neg (by simpa [imp_iff_not_or] using stopped),
          CallGraph.allChains_nil_wanted, List.take_nil, List.append_nil, eraseDups_of_nodup nodup]
      · rw [if_neg stopped, if_pos (by simpa using stopped)]
        dsimp only [addChains]
        rw [CallGraph.chains_eq_take]

theorem callChains_foldl {context : Context} (nodup : context.callChains.Nodup)
    (paths : List String) :
    (paths.foldl (addFile workspace disk request) context).callChains =
      (context.callChains ++ paths.flatMap fun path =>
        (workspace.chainsFrom disk request path).take workspace.settings.maxCallChains).eraseDups := by
  induction paths generalizing context with
  | nil => rw [List.foldl_nil, List.flatMap_nil, List.append_nil, eraseDups_of_nodup nodup]
  | cons path rest ih =>
      have next : (addFile workspace disk request context path).callChains.Nodup := by
        rw [callChains_addFile nodup]
        exact nodup_eraseDups _
      rw [List.foldl_cons, ih next, callChains_addFile nodup, List.flatMap_cons, ← List.append_assoc]
      exact eraseDups_append_congr (eraseDups_of_nodup (nodup_eraseDups _)) rfl

theorem callChains_assemble :
    (assemble workspace disk request).callChains =
      ((request.changedFiles.flatMap (workspace.chainsFrom disk request)).eraseDups).take
        workspace.settings.maxCallChains := by
  have merged : (request.changedFiles.foldl (addFile workspace disk request) ⟨[], [], []⟩).callChains =
      (request.changedFiles.flatMap fun path => (workspace.chainsFrom disk request path).take
        workspace.settings.maxCallChains).eraseDups :=
    callChains_foldl List.nodup_nil request.changedFiles
  rw [assemble]
  dsimp only
  rw [merged]
  refine take_eraseDups_flatMap_congr fun path _ => ?_
  have nodup := workspace.nodup_chainsFrom disk request path
  rw [take_eraseDups_take _ nodup, eraseDups_of_nodup nodup]

/-- Lower caps cut off the ends of the related files and of the chains and change nothing else. The
chains are the first ones of all changed files together, each file's chains taken without a cap. -/
theorem assemble_withCaps (workspace : Workspace) (disk : Disk) (request : Request)
    {relatedFiles moreFiles callChains moreChains : Nat} (fewerFiles : relatedFiles ≤ moreFiles)
    (fewerChains : callChains ≤ moreChains) :
    let small := assemble (workspace.withCaps relatedFiles callChains) disk request
    let large := assemble (workspace.withCaps moreFiles moreChains) disk request
    small.changedFiles = large.changedFiles ∧
    small.relatedFiles = large.relatedFiles.take relatedFiles ∧
    small.callChains = large.callChains.take callChains ∧
    small.callChains =
      ((request.changedFiles.flatMap (workspace.chainsFrom disk request)).eraseDups).take callChains ∧
    ∀ source root settings, Workspace.openAt source root settings = .ok workspace →
      Workspace.openAt source root (settings.withCaps relatedFiles callChains) =
        .ok (workspace.withCaps relatedFiles callChains) := by
  intro small large
  -- Whatever the caps are, each list is cut from one that they have no part in.
  have sources (related chains : Nat) :
      (assemble (workspace.withCaps related chains) disk request).changedFiles =
        request.changedFiles.filterMap fun path => (workspace.changedFile? disk path).map fun found =>
          ChangedFile.ofSource found.1 found.2 :=
    changedFiles_assemble
  have files (related chains : Nat) :
      (assemble (workspace.withCaps related chains) disk request).relatedFiles =
        (distinctPaths ((workspace.leads disk request).map workspace.emitted)).take related :=
    relatedFiles_assemble
  have texts (related chains : Nat) :
      (assemble (workspace.withCaps related chains) disk request).callChains =
        ((request.changedFiles.flatMap (workspace.chainsFrom disk request)).eraseDups).take chains :=
    callChains_assemble
  refine ⟨?_, ?_, ?_, texts _ _, fun source root settings opened => ?_⟩
  · rw [sources, sources]
  · rw [files, files, List.take_take, Nat.min_eq_left fewerFiles]
  · rw [texts, texts, List.take_take, Nat.min_eq_left fewerChains]
  · rw [Workspace.openAt_withCaps, opened]
    rfl

def forkedCalls : Workspace :=
  let files := [("A.java", "class A { void a() { B.b(); C.c(); } }"),
    ("B.java", "class B { static void b() { } }"),
    ("C.java", "class C { static void c() { } }")].filterMap fun (path, text) =>
      (SourceFile.parse path text).toOption
  ⟨"/p", {}, .mk files, .available .merge, CallGraph.build (.mk files) (.available .merge) .merge⟩

def forkedCallsDisk : Disk :=
  ⟨.directory [("p", .directory [("A.java",
    .file "class A { void a() { B.b(); C.c(); } }".toUTF8.toList)])], []⟩

theorem assemble_withCaps_forkedCalls :
    let request : Request := ⟨["A.java"], none, 1, 1, .pair⟩
    let small := assemble (forkedCalls.withCaps 1 1) forkedCallsDisk request
    let large := assemble (forkedCalls.withCaps 2 5) forkedCallsDisk request
    (1 ≤ 2 ∧ 1 ≤ 5) ∧
    (small.changedFiles = large.changedFiles ∧
      small.relatedFiles = large.relatedFiles.take 1 ∧
      small.callChains = large.callChains.take 1 ∧
      small.callChains = ((request.changedFiles.flatMap
        (forkedCalls.chainsFrom forkedCallsDisk request)).eraseDups).take 1 ∧
      ∀ source root settings, Workspace.openAt source root settings = .ok forkedCalls →
        Workspace.openAt source root (settings.withCaps 1 1) = .ok (forkedCalls.withCaps 1 1)) ∧
    large.relatedFiles.map (·.path) = ["B.java", "C.java"] ∧
    large.callChains = ["A.a() -> B.b()", "A.a() -> C.c()"] := by
  intro request small large
  refine ⟨by decide, assemble_withCaps forkedCalls forkedCallsDisk request (by decide) (by decide), ?_⟩
  decide +kernel

end Context

end CallContext
