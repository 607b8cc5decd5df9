import CallContext.Proofs.CallGraph.History
import CallContext.Proofs.Index.Order
import CallContext.Proofs.Resolution.Receiver

namespace CallContext

open Java Collection

theorem Collection.filter_flatMap {α β : Type} {items : List α} {f : α → List β} {p : α → Bool}
    {q : β → Bool} (each : ∀ item ∈ items, ∀ found ∈ f item, q found = p item) :
    (items.flatMap f).filter q = (items.filter p).flatMap f := by
  induction items with
  | nil => rfl
  | cons first rest ih =>
      have later := ih fun item member => each item (List.mem_cons_of_mem first member)
      have here := each first List.mem_cons_self
      rw [List.flatMap_cons, List.filter_append, later]
      by_cases kept : p first
      · have whole : (f first).filter q = f first :=
          List.filter_eq_self.mpr fun found member => (here found member).trans kept
        rw [List.filter_cons_of_pos kept, List.flatMap_cons, whole]
      · have nothing : (f first).filter q = [] :=
          List.filter_eq_nil_iff.mpr fun found member => (here found member).symm ▸ kept
        rw [List.filter_cons_of_neg kept, nothing, List.nil_append]

namespace SourceIndex.Without

variable {hidden : List String} {large small : SourceIndex} (apart : Without hidden large small)

include apart

theorem scopes_eq :
    small.scopes = large.scopes.filter fun scope => Name.simpleName scope.type.fqn ∉ hidden := by
  rw [scopes, scopes, apart.declarations]
  refine (filter_flatMap fun place _ scope member => ?_).symm
  obtain ⟨method, -, rfl⟩ := List.mem_map.mp member
  rfl

variable {scope : Scope} (declared : scope ∈ small.scopes)

include declared

theorem filter_scopes_eq (policy : OverloadPolicy) :
    large.scopes.filter (·.id policy = scope.id policy) =
      small.scopes.filter (·.id policy = scope.id policy) := by
  have visible := (apart.avoids_place ((mem_scopes small scope).mp declared).1).simpleName
  rw [apart.scopes_eq, List.filter_filter]
  refine List.filter_congr fun other _ => ?_
  by_cases same : other.id policy = scope.id policy
  · have owner : other.type.fqn = scope.type.fqn := by
      have owners := congrArg MethodId.owner same
      cases policy <;> exact owners
    simp [same, owner, visible]
  · simp [same]

theorem location_build_eq (resolver : Resolver) (policy : OverloadPolicy) :
    (CallGraph.build large resolver policy).location (scope.id policy) =
      (CallGraph.build small resolver policy).location (scope.id policy) := by
  rw [CallGraph.location_build, CallGraph.location_build, ← List.head?_filter, ← List.head?_filter,
    apart.filter_scopes_eq declared policy]

theorem callees_build_eq (resolver : Resolver) (policy : OverloadPolicy) :
    (CallGraph.build large resolver policy).callees (scope.id policy) =
      (CallGraph.build small resolver policy).callees (scope.id policy) := by
  have calls (index : SourceIndex) :
      (CallGraph.Entry.callsOf (index.log resolver policy)).filter (·.1 = scope.id policy) =
        (index.scopes.filter (·.id policy = scope.id policy)).flatMap fun other =>
          (index.targetsIn resolver other).map fun callee => (other.id policy, callee) := by
    rw [calls_log, resolvedCalls]
    refine filter_flatMap fun other _ call member => ?_
    obtain ⟨callee, -, rfl⟩ := List.mem_map.mp member
    rfl
  have alike : (large.scopes.filter (·.id policy = scope.id policy)).flatMap (fun other =>
          (large.targetsIn resolver other).map fun callee => (other.id policy, callee)) =
        (small.scopes.filter (·.id policy = scope.id policy)).flatMap fun other =>
          (small.targetsIn resolver other).map fun callee => (other.id policy, callee) := by
    rw [apart.filter_scopes_eq declared policy]
    refine List.flatMap_congr fun other member => ?_
    rw [apart.targetsIn_eq (List.mem_of_mem_filter member) resolver]
  rw [CallGraph.build_eq_ofLog, CallGraph.build_eq_ofLog, CallGraph.callees_ofLog,
    CallGraph.callees_ofLog, calls, calls, alike]

end SourceIndex.Without

namespace SourceIndex

section

variable {before after : List SourceFile} {added : SourceFile}

theorem eq_or_mem_others {file : SourceFile} (given : file ∈ before ++ added :: after) :
    file = added ∨ file ∈ before ++ after := by
  rcases List.mem_append.mp given with first | rest
  · exact .inr (List.mem_append_left _ first)
  · exact (List.mem_cons.mp rest).imp_right (List.mem_append_right _)

variable (new : ∀ file ∈ before ++ after, file.path ≠ added.path)

include new

theorem files_ofFiles_without : (ofFiles (before ++ added :: after)).files.filter
    (·.path != added.path) = (ofFiles (before ++ after)).files := by
  have others : (before ++ added :: after).filter (·.path != added.path) = before ++ after := by
    have kept : (before ++ after).filter (·.path != added.path) = before ++ after :=
      List.filter_eq_self.mpr fun file given => bne_iff_ne.mpr (new file given)
    rw [List.filter_append] at kept
    rw [List.filter_append, List.filter_cons_of_neg (by simp), kept]
  rw [files_ofFiles, files_ofFiles, filter_mergeSort_byKey, others]

theorem without_ofFiles (parsed : ∀ file ∈ before ++ added :: after, file.IsParsed)
    (unrelated : ∀ type ∈ added.types, ∀ file ∈ before ++ after, ∀ name ∈ file.mentioned,
      type.name ∉ Name.segments name) :
    Without (added.types.map (·.name)) (ofFiles (before ++ added :: after))
      (ofFiles (before ++ after)) where
  declarations := by
    rw [declarations, declarations, ← files_ofFiles_without new]
    refine (filter_flatMap fun file indexed place member => ?_).symm
    obtain ⟨type, declared, rfl⟩ := List.mem_map.mp member
    have given := (mem_files_ofFiles _ file).mp indexed
    by_cases same : file.path = added.path
    · obtain rfl := (eq_or_mem_others given).resolve_right fun other => new file other same
      have simple := ((parsed file given).isRead.types type declared).simpleName
      have hidden : Name.simpleName type.fqn ∈ file.types.map (·.name) :=
        List.mem_map.mpr ⟨type, declared, simple.symm⟩
      simp [hidden]
    · have visible : Name.simpleName type.fqn ∉ added.types.map (·.name) := by
        intro hidden
        have others := (eq_or_mem_others given).resolve_left fun equal => same (congrArg _ equal)
        obtain ⟨other, among, named⟩ := List.mem_map.mp hidden
        have mentioned : type.fqn ∈ file.mentioned :=
          List.mem_append_right _ (List.mem_flatMap.mpr ⟨type, declared, List.mem_cons_self⟩)
        apply unrelated other among file others type.fqn mentioned
        rw [named]
        exact Name.simpleName_mem_segments type.fqn
      simp [visible, same]
  read place declared := by
    have indexed := ((mem_declarations _ place).mp declared).1
    exact (parsed place.file ((mem_files_ofFiles _ _).mp indexed)).isRead
  avoids file indexed name mentioned segment inside hidden := by
    obtain ⟨type, among, rfl⟩ := List.mem_map.mp hidden
    exact unrelated type among file ((mem_files_ofFiles _ file).mp indexed) name mentioned inside

end

/-- A parsed file with a new path, none of whose types the other files mention, changes neither what
their calls mean nor where their methods are nor what these call. -/
theorem ofFiles_unrelated {before after : List SourceFile} {added : SourceFile}
    (parsed : ∀ file ∈ before ++ added :: after, file.IsParsed)
    (new : ∀ file ∈ before ++ after, file.path ≠ added.path)
    (unrelated : ∀ type ∈ added.types, ∀ file ∈ before ++ after, ∀ name ∈ file.mentioned,
      type.name ∉ Name.segments name) :
    let index := ofFiles (before ++ after)
    let grown := ofFiles (before ++ added :: after)
    ∀ file ∈ before ++ after, ∀ type ∈ file.types, ∀ method ∈ type.methods,
      (∀ policy, ∀ site ∈ method.calls,
        grown.resolveCall policy ⟨file, type, method⟩ site =
          index.resolveCall policy ⟨file, type, method⟩ site) ∧
      ∀ resolver policy,
        let graph := CallGraph.build index resolver policy
        let extended := CallGraph.build grown resolver policy
        let id := MethodId.declared policy type.fqn method
        (graph.location id).isSome ∧ extended.location id = graph.location id ∧
          extended.callees id = graph.callees id := by
  intro index grown file given type declared method inType
  have apart : Without (added.types.map (·.name)) grown index := without_ofFiles new parsed unrelated
  have place : ⟨file, type⟩ ∈ index.declarations :=
    (mem_declarations index _).mpr ⟨(mem_files_ofFiles _ file).mpr given, declared⟩
  have scope : ⟨file, type, method⟩ ∈ index.scopes := (mem_scopes index _).mpr ⟨place, inType⟩
  refine ⟨fun policy site called => ?_, fun resolver policy => ⟨?_, ?_, ?_⟩⟩
  · rw [resolveCall, resolveCall, apart.candidates_eq scope called]
  · rw [CallGraph.location_build, Option.isSome_map, List.find?_isSome]
    exact ⟨_, scope, decide_eq_true rfl⟩
  · exact apart.location_build_eq scope resolver policy
  · exact apart.callees_build_eq scope resolver policy

def readOr (path text : String) : SourceFile :=
  (SourceFile.parse path text).toOption.getD (.ofItems path text [])

def caller : SourceFile :=
  readOr "a/Main.java" "package a; import b.Tool; class Main { Tool t; void run() { t.use(); } }"

def callee : SourceFile :=
  readOr "b/Tool.java" "package b; class Tool { void use() { } }"

def stranger : SourceFile :=
  readOr "a/Spare.java" "package a; class Spare { void use() { } }"

theorem isParsed_readOr {path text : String} (accepted : (SourceFile.parse path text).toOption.isSome) :
    (readOr path text).IsParsed := by
  obtain ⟨file, found⟩ := Option.isSome_iff_exists.mp accepted
  rw [readOr, found]
  exact SourceFile.isParsed_of_parse (SourceFile.parse_of_toOption found)

theorem ofFiles_unrelated_stranger :
    let index := ofFiles ([caller] ++ [callee])
    let grown := ofFiles ([caller] ++ stranger :: [callee])
    ((∀ file ∈ [caller] ++ stranger :: [callee], file.IsParsed) ∧
      (∀ file ∈ [caller] ++ [callee], file.path ≠ stranger.path) ∧
      ∀ type ∈ stranger.types, ∀ file ∈ [caller] ++ [callee], ∀ name ∈ file.mentioned,
        type.name ∉ Name.segments name) ∧
    stranger.types.map (·.fqn) = ["a.Spare"] ∧
    caller.types.flatMap (·.methods.flatMap (·.calls)) = [⟨.name "t", "use", 0, 1⟩] ∧
    ∀ type ∈ caller.types, ∀ method ∈ type.methods,
      (CallGraph.build grown (.available .merge) .merge).callees ⟨type.fqn, method.name, none⟩ =
        (CallGraph.build index (.available .merge) .merge).callees ⟨type.fqn, method.name, none⟩ ∧
      ∀ site ∈ method.calls, grown.resolveCall .merge ⟨caller, type, method⟩ site =
        some (.exact ⟨"b.Tool", "use", none⟩) := by
  intro index grown
  have parsed : ∀ file ∈ [caller] ++ stranger :: [callee], file.IsParsed := by
    intro file member
    simp only [List.cons_append, List.nil_append, List.mem_cons, List.not_mem_nil, or_false] at member
    rcases member with rfl | rfl | rfl
    all_goals exact isParsed_readOr (by decide +kernel)
  -- One evaluation of the three files decides everything that is about them alone.
  obtain ⟨new, unrelated, types, calls, order, resolved⟩ :
      (∀ file ∈ [caller] ++ [callee], file.path ≠ stranger.path) ∧
      (∀ type ∈ stranger.types, ∀ file ∈ [caller] ++ [callee], ∀ name ∈ file.mentioned,
        type.name ∉ Name.segments name) ∧
      stranger.types.map (·.fqn) = ["a.Spare"] ∧
      caller.types.flatMap (·.methods.flatMap (·.calls)) = [⟨.name "t", "use", 0, 1⟩] ∧
      [caller, callee].Pairwise (fun a b : SourceFile => decide (a.path ≤ b.path) = true) ∧
      ∀ type ∈ caller.types, ∀ method ∈ type.methods, ∀ site ∈ method.calls,
        (SourceIndex.mk [caller, callee]).resolveCall .merge ⟨caller, type, method⟩ site =
          some (.exact ⟨"b.Tool", "use", none⟩) := by decide +kernel
  have sorted : index = SourceIndex.mk [caller, callee] :=
    congrArg SourceIndex.mk (List.mergeSort_of_pairwise order)
  refine ⟨⟨parsed, new, unrelated⟩, types, calls, fun type declared method inType => ?_⟩
  obtain ⟨targets, graphs⟩ :=
    ofFiles_unrelated parsed new unrelated caller List.mem_cons_self type declared method inType
  refine ⟨(graphs (.available .merge) .merge).2.2, fun site called => ?_⟩
  calc grown.resolveCall .merge ⟨caller, type, method⟩ site
      = index.resolveCall .merge ⟨caller, type, method⟩ site := targets .merge site called
    _ = (SourceIndex.mk [caller, callee]).resolveCall .merge ⟨caller, type, method⟩ site := by
        rw [sorted]
    _ = some (.exact ⟨"b.Tool", "use", none⟩) := resolved type declared method inType site called

end SourceIndex

end CallContext
