import CallContext.Proofs.CallGraph.Adjacency
import CallContext.Proofs.CallGraph.Log
import CallContext.Proofs.Resolution.Candidates

/-!
Merging overloads is a projection. The graph in which overloads share one identity is what remains of
the graph that tells them apart once parameters are forgotten. It rests on the fact that all methods
that one call can mean have the same owner and name.
-/

namespace CallContext

open Java Collection

namespace MethodId

def merged (id : MethodId) : MethodId :=
  { id with parameters := none }

theorem merged_declared (policy : OverloadPolicy) (owner : String) (method : Method) :
    (declared policy owner method).merged = declared .merge owner method := by
  cases policy <;> rfl

end MethodId

theorem OwnedMethod.merged_id (policy : OverloadPolicy) (found : OwnedMethod) :
    (found.id policy).merged = found.id .merge :=
  MethodId.merged_declared policy found.owner found.method

theorem Scope.merged_id (policy : OverloadPolicy) (scope : Scope) :
    (scope.id policy).merged = scope.id .merge :=
  MethodId.merged_declared policy scope.type.fqn scope.method

namespace SourceIndex

theorem IsOverloadSet.id_merge_eq {index : SourceIndex} {name : String} {found : List OwnedMethod}
    (group : index.IsOverloadSet name found) {one other : OwnedMethod} (left : one ∈ found)
    (right : other ∈ found) : one.id .merge = other.id .merge := by
  have owners := group.owner_eq left right
  have names : one.method.name = other.method.name := by
    rw [(group.declared left).1, (group.declared right).1]
  simp only [OwnedMethod.id, MethodId.declared, owners, names]

theorem namedBy_target_merged {index : SourceIndex} {name : String} {found : List OwnedMethod}
    (group : index.IsOverloadSet name found) (arguments : Nat) :
    ((namedBy (target .distinguish found arguments)).map MethodId.merged).eraseDups =
      (namedBy (target .merge found arguments)).eraseDups := by
  rw [namedBy_target_distinguish, namedBy_target_merge, List.map_map]
  have forget : MethodId.merged ∘ OwnedMethod.id .distinguish = OwnedMethod.id .merge :=
    funext (OwnedMethod.merged_id .distinguish)
  rw [forget]
  cases found with
  | nil => rfl
  | cons first rest =>
      have some : (fitting (first :: rest) arguments).map (OwnedMethod.id .merge) ≠ [] := by
        simp [fitting_eq_nil_iff]
      have same : ∀ id ∈ (fitting (first :: rest) arguments).map (OwnedMethod.id .merge),
          id = first.id .merge := by
        intro id member
        obtain ⟨one, fits, rfl⟩ := List.mem_map.mp member
        exact group.id_merge_eq (fitting_subset _ _ fits) (by simp)
      rw [eraseDups_eq_singleton some same]
      rfl

theorem targetsIn_merged (index : SourceIndex) (scope : Scope) :
    ((index.targetsIn (.available .distinguish) scope).map MethodId.merged).eraseDups =
      (index.targetsIn (.available .merge) scope).eraseDups := by
  simp only [targetsIn_eq_flatMap, List.map_flatMap]
  apply eraseDups_flatMap_congr
  intro site _
  exact namedBy_target_merged (index.candidates_isOverloadSet scope site) site.arguments

theorem resolvedCalls_merged (index : SourceIndex) :
    ((index.resolvedCalls (.available .distinguish) .distinguish).map
      (Prod.map MethodId.merged MethodId.merged)).eraseDups =
      (index.resolvedCalls (.available .merge) .merge).eraseDups := by
  simp only [resolvedCalls, List.map_flatMap]
  apply eraseDups_flatMap_congr
  intro scope _
  have forget : ((index.targetsIn (.available .distinguish) scope).map fun callee =>
        (scope.id .distinguish, callee)).map (Prod.map MethodId.merged MethodId.merged) =
      ((index.targetsIn (.available .distinguish) scope).map MethodId.merged).map fun callee =>
        (scope.id .merge, callee) := by
    simp [List.map_map, Function.comp_def, Scope.merged_id]
  rw [forget, ← eraseDups_map, targetsIn_merged, eraseDups_map]

end SourceIndex

namespace CallGraph

variable (index : SourceIndex)

theorem mem_edges_build_merge (call : MethodId × MethodId) :
    call ∈ (build index (.available .merge) .merge).edges ↔
      ∃ apart ∈ (build index (.available .distinguish) .distinguish).edges,
        apart.map MethodId.merged MethodId.merged = call := by
  simp only [mem_edges_build_iff_resolved]
  rw [← List.mem_map]
  exact mem_iff_of_eraseDups_eq index.resolvedCalls_merged.symm call

theorem keys_build_merge (resolver resolver' : Resolver) (policy : OverloadPolicy) :
    (build index resolver .merge).locations.keys =
      ((build index resolver' policy).locations.keys.map MethodId.merged).eraseDups := by
  rw [keys_build, keys_build, eraseDups_map, List.map_map]
  congr 2
  funext scope
  exact (scope.merged_id policy).symm

theorem location_build_merge (resolver resolver' : Resolver) (policy : OverloadPolicy)
    (id : MethodId) :
    (build index resolver .merge).location id =
      ((build index resolver' policy).locations.keys.find? (·.merged = id)).bind
        (build index resolver' policy).location := by
  rw [location_build, keys_build, find?_eraseDups, List.find?_map]
  have forget : ((fun other : MethodId => decide (other.merged = id)) ∘ fun scope : Scope =>
      scope.id policy) = fun scope => decide (scope.id .merge = id) := by
    funext scope
    simp [Scope.merged_id]
  rw [forget]
  cases found : index.scopes.find? (·.id .merge = id) with
  | none => rfl
  | some scope =>
      have first : index.scopes.find? (·.id policy = scope.id policy) = some scope := by
        refine find?_eq_some_of_imp found (fun other same => ?_) (by simp)
        have named : scope.id .merge = id := by simpa using List.find?_some found
        rw [decide_eq_true_eq] at same ⊢
        rw [← other.merged_id policy, same, scope.merged_id, named]
      simp [location_build, first]

/-- The graph with overloads merged is the image of the graph with overloads apart. -/
theorem merge_quotient_distinguish (files : List SourceFile) :
    let index := SourceIndex.ofFiles files
    let apart := build index (.available .distinguish) .distinguish
    let together := build index (.available .merge) .merge
    (∀ caller callee, (caller, callee) ∈ together.edges ↔
      ∃ call ∈ apart.edges, caller = call.1.merged ∧ callee = call.2.merged) ∧
    together.locations.keys = (apart.locations.keys.map MethodId.merged).eraseDups ∧
    ∀ id, together.location id =
      (apart.locations.keys.find? (·.merged = id)).bind apart.location := by
  intro index apart together
  refine ⟨fun caller callee => ?_, keys_build_merge index _ _ _, location_build_merge index _ _ _⟩
  rw [mem_edges_build_merge]
  refine exists_congr fun call => and_congr_right fun _ => ?_
  rw [eq_comm, Prod.mk.injEq, Prod.map_fst, Prod.map_snd]

end CallGraph

end CallContext
