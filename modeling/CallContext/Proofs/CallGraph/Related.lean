import CallContext.Proofs.CallGraph.Log
import CallContext.Proofs.CallGraph.Queue

namespace CallContext.CallGraph

open Collection Search

def Calls (graph : CallGraph) (caller callee : MethodId) : Prop :=
  (caller, callee) ∈ graph.edges

def CalledBy (graph : CallGraph) (callee caller : MethodId) : Prop :=
  graph.Calls caller callee

theorem adjacent_callees (graph : CallGraph) : Adjacent graph.callees = graph.Calls := by
  funext caller callee
  rw [Adjacent, mem_callees, Calls]

theorem adjacent_callers (graph : CallGraph) : Adjacent graph.callers = graph.CalledBy := by
  funext callee caller
  rw [Adjacent, CalledBy, mem_callers, Calls]

theorem mem_reached_callees (graph : CallGraph) (seeds : List MethodId) (down : Nat)
    (id : MethodId) :
    id ∈ reached graph.callees down seeds ↔ id ∉ seeds ∧ Within graph.Calls seeds down id := by
  rw [mem_reached, adjacent_callees]

theorem mem_reached_callers (graph : CallGraph) (seeds : List MethodId) (up : Nat)
    (id : MethodId) :
    id ∈ reached graph.callers up seeds ↔ id ∉ seeds ∧ Within graph.CalledBy seeds up id := by
  rw [mem_reached, adjacent_callers]

theorem related_eq_append (graph : CallGraph) (seeds : List MethodId) (up down : Nat) :
    graph.related seeds up down = reached graph.callees down seeds ++
      (reached graph.callers up seeds).filter (· ∉ reached graph.callees down seeds) := by
  rw [related_eq_eraseDups, eraseDups_append_filter, eraseDups_of_nodup (nodup_reached _ _ _), eraseDups_filter,
    eraseDups_of_nodup (nodup_reached _ _ _)]

/-- A method is related to the seeds if and only if it is no seed and is within reach of one along
calls in one of the two directions; and related methods come by direction and distance. -/
theorem related_exact (graph : CallGraph) (seeds : List MethodId) (up down : Nat) :
    (∀ id, id ∈ graph.related seeds up down ↔ id ∉ seeds ∧
      ((∃ seed ∈ seeds, ∃ n ≤ down, Walk graph.Calls n seed id) ∨
        ∃ seed ∈ seeds, ∃ n ≤ up, Walk graph.Calls n id seed)) ∧
    (graph.related seeds up down).Nodup ∧
    ∃ below above, graph.related seeds up down = below ++ above ∧
      (∀ id ∈ below, Within graph.Calls seeds down id) ∧
      (∀ id ∈ above, ¬ Within graph.Calls seeds down id) ∧
      (below.Pairwise fun before after => ∃ m n, IsDistance graph.Calls seeds m before ∧
        IsDistance graph.Calls seeds n after ∧ m ≤ n) ∧
      above.Pairwise fun before after => ∃ m n, IsDistance graph.CalledBy seeds m before ∧
        IsDistance graph.CalledBy seeds n after ∧ m ≤ n := by
  refine ⟨fun id => ?_, ?_, _, _, related_eq_append graph seeds up down, ?_, ?_, ?_, ?_⟩
  · have upwards (seed : MethodId) (n : Nat) :
        Walk graph.CalledBy n seed id ↔ Walk graph.Calls n id seed := walk_reverse_iff
    rw [related_eq_eraseDups, List.mem_eraseDups, List.mem_append, mem_reached_callees,
      mem_reached_callers, ← and_or_left]
    simp only [Within, upwards]
  · rw [related_eq_eraseDups]
    exact nodup_eraseDups _
  · exact fun id member => ((mem_reached_callees graph seeds down id).mp member).2
  · intro id member within
    obtain ⟨above, unlike⟩ := List.mem_filter.mp member
    have new := ((mem_reached_callers graph seeds up id).mp above).1
    rw [decide_eq_true_eq] at unlike
    exact unlike ((mem_reached_callees graph seeds down id).mpr ⟨new, within⟩)
  · rw [← adjacent_callees]
    exact reached_sorted graph.callees down seeds
  · rw [← adjacent_callers]
    exact (reached_sorted graph.callers up seeds).filter _

example : (ofLog [.call ⟨"T", "a", none⟩ ⟨"T", "b", none⟩, .call ⟨"T", "b", none⟩ ⟨"T", "b", none⟩,
    .call ⟨"T", "b", none⟩ ⟨"T", "a", none⟩]).related [⟨"T", "a", none⟩, ⟨"T", "c", none⟩] 5 5 =
      [⟨"T", "b", none⟩] := by
  decide +kernel

end CallContext.CallGraph
