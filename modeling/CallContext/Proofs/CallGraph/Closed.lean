import CallContext.CallGraph.Statistics
import CallContext.Proofs.CallGraph.Adjacency
import CallContext.Proofs.CallGraph.Log
import CallContext.Proofs.Resolution.Candidates

/-!
The call graph of an index has no loose ends. What a call means is a method that some indexed type
declares, and every such method is registered, since declarations and targets are named alike.
-/

namespace CallContext

open Java Collection

namespace CallGraph

theorem IsClosed.external_eq_zero {graph : CallGraph} (closed : graph.IsClosed) (top : Nat) :
    (graph.statistics top).external = 0 := by
  have declared : graph.nodes.filter (fun id => (graph.location id).isNone) = [] := by
    rw [List.filter_eq_nil_iff, closed.nodes_eq]
    intro id member
    rw [Option.isNone_iff_eq_none]
    exact Option.isSome_iff_ne_none.mp ((graph.mem_keys id).mp member)
  simp [statistics, declared]

theorem mem_edges_build_iff_scope (index : SourceIndex) (resolver : Resolver) (policy : OverloadPolicy)
    (caller callee : MethodId) :
    (caller, callee) ∈ (build index resolver policy).edges ↔
      ∃ scope ∈ index.scopes, caller = scope.id policy ∧ callee ∈ index.targetsIn resolver scope := by
  rw [mem_edges_build_iff_resolved, SourceIndex.resolvedCalls, List.mem_flatMap]
  simp only [List.mem_map, Prod.mk.injEq]
  constructor
  · rintro ⟨scope, member, _, named, rfl, rfl⟩
    exact ⟨scope, member, rfl, named⟩
  · rintro ⟨scope, member, rfl, named⟩
    exact ⟨scope, member, callee, named, rfl, rfl⟩

theorem location_declared_isSome (index : SourceIndex) (resolver : Resolver)
    (policy : OverloadPolicy) {place : Declaration} (declared : place ∈ index.declarations)
    {method : Method} (member : method ∈ place.type.methods) :
    ((build index resolver policy).location
      (MethodId.declared policy place.type.fqn method)).isSome := by
  rw [← mem_keys, keys_build, List.mem_eraseDups]
  exact List.mem_map_of_mem ((index.mem_scopes ⟨place.file, place.type, method⟩).mpr ⟨declared, member⟩)

theorem build_isClosed (index : SourceIndex) (policy : OverloadPolicy) :
    (build index (.available policy) policy).IsClosed := by
  rintro ⟨caller, callee⟩ made
  obtain ⟨scope, member, rfl, named⟩ := (mem_edges_build_iff_scope index _ policy caller callee).mp made
  constructor
  · obtain ⟨declared, method⟩ := (index.mem_scopes scope).mp member
    exact location_declared_isSome index _ policy declared method
  · rw [SourceIndex.targetsIn_eq_flatMap, List.mem_flatMap] at named
    obtain ⟨site, -, named⟩ := named
    obtain ⟨place, declared, method, declares, -, rfl⟩ :=
      index.resolveCall_declared policy scope site callee named
    exact location_declared_isSome index _ policy declared declares

theorem mem_edges_build (files : List SourceFile) (policy : OverloadPolicy)
    (caller callee : MethodId) :
    (caller, callee) ∈
        (build (SourceIndex.ofFiles files) (.available policy) policy).edges ↔
      ∃ file ∈ files, ∃ type ∈ file.types, ∃ method ∈ type.methods, ∃ site ∈ method.calls,
        ∃ target,
          (SourceIndex.ofFiles files).resolveCall policy ⟨file, type, method⟩ site = some target ∧
          caller = MethodId.declared policy type.fqn method ∧ callee ∈ target.ids := by
  rw [mem_edges_build_iff_scope]
  simp only [SourceIndex.targetsIn_eq_flatMap, List.mem_flatMap, SourceIndex.mem_namedBy]
  constructor
  · rintro ⟨⟨file, type, method⟩, member, rfl, site, call, target, resolved, named⟩
    obtain ⟨declared, owned⟩ := (SourceIndex.mem_scopes _ _).mp member
    obtain ⟨indexed, holds⟩ := (SourceIndex.mem_declarations _ _).mp declared
    have given := (SourceIndex.mem_files_ofFiles files file).mp indexed
    exact ⟨file, given, type, holds, method, owned, site, call, target, resolved, rfl, named⟩
  · rintro ⟨file, given, type, holds, method, owned, site, call, target, resolved, rfl, named⟩
    have indexed := (SourceIndex.mem_files_ofFiles files file).mpr given
    have declared := (SourceIndex.mem_declarations _ ⟨file, type⟩).mpr ⟨indexed, holds⟩
    have member := (SourceIndex.mem_scopes _ ⟨file, type, method⟩).mpr ⟨declared, owned⟩
    exact ⟨⟨file, type, method⟩, member, rfl, site, call, target, resolved, named⟩

/-- The edges of a built graph are the resolved calls of the given files, and both ends of each are
registered at the first method of that identity. -/
theorem build_edges_registered (files : List SourceFile) (policy : OverloadPolicy) :
    let index := SourceIndex.ofFiles files
    let graph := build index (.available policy) policy
    (∀ caller callee, (caller, callee) ∈ graph.edges ↔
      ∃ file ∈ files, ∃ type ∈ file.types, ∃ method ∈ type.methods, ∃ site ∈ method.calls,
        ∃ target, index.resolveCall policy ⟨file, type, method⟩ site = some target ∧
          caller = MethodId.declared policy type.fqn method ∧ callee ∈ target.ids) ∧
    (∀ caller callee, (caller, callee) ∈ graph.edges →
      (graph.location caller).isSome ∧ (graph.location callee).isSome) ∧
    (∀ id, graph.location id =
      (index.scopes.find? fun scope => MethodId.declared policy scope.type.fqn scope.method = id).map
        fun scope => ⟨scope.file.path, scope.method.line⟩) ∧
    graph.nodes = graph.locations.keys ∧
    (∀ top, (graph.statistics top).external = 0) ∧
    ∀ scope site target, index.resolveCall policy scope site = some target → ∀ id ∈ target.ids,
      id.name = site.name ∧ ∃ place ∈ index.declarations, ∃ method ∈ place.type.methods,
        id = MethodId.declared policy place.type.fqn method := by
  intro index graph
  have closed : graph.IsClosed := build_isClosed index policy
  refine ⟨mem_edges_build files policy, fun caller callee edge => ?_,
    location_build index _ policy, closed.nodes_eq, closed.external_eq_zero, ?_⟩
  · exact closed _ edge
  · intro scope site target resolved id named
    have meant : id ∈ SourceIndex.namedBy (index.resolveCall policy scope site) :=
      (SourceIndex.mem_namedBy _ id).mpr ⟨target, resolved, named⟩
    obtain ⟨place, declared, method, owned, name, rfl⟩ :=
      index.resolveCall_declared policy scope site id meant
    exact ⟨by cases policy <;> exact name, place, declared, method, owned, rfl⟩

end CallGraph

end CallContext
