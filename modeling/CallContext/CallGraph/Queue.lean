import CallContext.CallGraph
import CallContext.Collection.Distinct
import CallContext.Search

/-!
Searching a call graph with a queue. A method waits together with the number of calls that lead to it. It
is taken from the front of the queue, and the methods one call away that have not been seen are put in at
the end. Since they are seen from then on, every search ends.
-/

namespace CallContext.CallGraph

variable (graph : CallGraph)

theorem mem_nodes_of_mem_neighbours (direction : Direction) {id next : MethodId}
    (near : next ∈ graph.neighbours direction id) : next ∈ graph.nodes := by
  have listed : next ∈ graph.sources ∨ next ∈ graph.targets := by
    cases direction with
    | forward =>
      have calling := (graph.mirror id next).mp near
      exact .inr ((graph.backward.mem_ids next).mpr (List.ne_nil_of_mem calling))
    | backward =>
      have called := (graph.mirror next id).mpr near
      exact .inl ((graph.forward.mem_ids next).mpr (List.ne_nil_of_mem called))
  rw [nodes, List.mem_eraseDups, List.append_assoc, List.mem_append, List.mem_append]
  exact .inr listed

/-- The number of methods that a search may still take out of its queue, at most. -/
def ahead (seen : List MethodId) (waiting : List (MethodId × Nat)) : Nat :=
  (graph.nodes.filter (· ∉ seen)).length + waiting.length

theorem ahead_skip (seen : List MethodId) (first : MethodId × Nat) (waiting : List (MethodId × Nat)) :
    graph.ahead seen waiting < graph.ahead seen (first :: waiting) :=
  Nat.lt_succ_self _

theorem ahead_visit (seen : List MethodId) (direction : Direction) (id : MethodId) (depth : Nat)
    (waiting : List (MethodId × Nat)) :
    let found := Search.unseen seen (graph.neighbours direction id)
    graph.ahead (found ++ seen) (waiting ++ found.map (·, depth + 1)) <
      graph.ahead seen ((id, depth) :: waiting) := by
  intro found
  have distinct : (found ++ graph.nodes.filter (· ∉ found ++ seen)).Nodup := by
    refine List.nodup_append.mpr ⟨Collection.nodup_eraseDups _,
      List.Pairwise.filter _ (Collection.nodup_eraseDups _), fun next new other left same => ?_⟩
    have unlike := of_decide_eq_true (List.mem_filter.mp left).2
    exact unlike (List.mem_append_left _ (same ▸ new))
  have inside : found ++ graph.nodes.filter (· ∉ found ++ seen) ⊆ graph.nodes.filter (· ∉ seen) := by
    intro next member
    rcases List.mem_append.mp member with new | left
    · obtain ⟨near, unlike⟩ := List.mem_filter.mp (List.mem_eraseDups.mp new)
      exact List.mem_filter.mpr ⟨graph.mem_nodes_of_mem_neighbours direction near, unlike⟩
    · obtain ⟨node, unlike⟩ := List.mem_filter.mp left
      refine List.mem_filter.mpr ⟨node, decide_eq_true fun old => ?_⟩
      exact of_decide_eq_true unlike (List.mem_append_right _ old)
  have fewer := distinct.length_le_of_subset inside
  rw [List.length_append] at fewer
  simp only [ahead, List.length_append, List.length_map, List.length_cons]
  omega

end CallContext.CallGraph
