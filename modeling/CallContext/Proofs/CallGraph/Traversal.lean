import CallContext.Proofs.CallGraph.Hops

namespace CallContext.CallGraph

open Collection Search

variable (graph : CallGraph)

theorem related_callees (seeds : List MethodId) (down : Nat) :
    graph.related seeds 0 down = reached graph.callees down seeds := by
  have nothing : reached graph.callers 0 seeds = [] := rfl
  rw [related_eq_eraseDups, nothing, List.append_nil, eraseDups_of_nodup (nodup_reached _ _ _)]

theorem related_callers (seeds : List MethodId) (up : Nat) :
    graph.related seeds up 0 = reached graph.callers up seeds := by
  have nothing : reached graph.callees 0 seeds = [] := rfl
  rw [related_eq_eraseDups, nothing, List.nil_append, eraseDups_of_nodup (nodup_reached _ _ _)]

theorem render_pair {way : List MethodId} {first last : MethodId} (head : way.head? = some first)
    (tail : way.getLast? = some last) :
    ChainStyle.pair.render way = first.displayName ++ " -> " ++ last.displayName := by
  simp [ChainStyle.render, ChainStyle.shown, head, tail, Text.joinWith]

def pairBelow (target id : MethodId) : String :=
  target.displayName ++ " -> " ++ id.displayName

def pairAbove (target id : MethodId) : String :=
  id.displayName ++ " -> " ++ target.displayName

section

variable {neighbours : MethodId → List MethodId} {limit : Nat} {target : MethodId}
  {trail : Trail MethodId}

theorem render_pair_places (found : trail ∈ trails neighbours limit [target]) :
    ChainStyle.pair.render trail.places = pairBelow target trail.last := by
  have started : trail.start = target := List.mem_singleton.mp (start_of_mem_trails found)
  rw [render_pair trail.head?_places trail.getLast?_places, started, pairBelow]

theorem render_pair_reverse_places (found : trail ∈ trails neighbours limit [target]) :
    ChainStyle.pair.render trail.places.reverse = pairAbove target trail.last := by
  have started : trail.start = target := List.mem_singleton.mp (start_of_mem_trails found)
  have head : trail.places.reverse.head? = some trail.last := by
    rw [List.head?_reverse, trail.getLast?_places]
  have tail : trail.places.reverse.getLast? = some trail.start := by
    rw [List.getLast?_reverse, trail.head?_places]
  rw [render_pair head tail, started, pairAbove]

theorem filter_trails_of_subset {wanted : List MethodId}
    (known : ∀ id ∈ reached neighbours limit [target], id ∈ wanted) :
    (trails neighbours limit [target]).filter (wanted.contains ·.last) =
      trails neighbours limit [target] := by
  rw [List.filter_eq_self]
  intro trail found
  simpa using known trail.last (List.mem_map_of_mem found)

end

theorem map_render_waysOf {wanted : List MethodId} {up down : Nat} {target : MethodId}
    (below : ∀ id ∈ reached graph.callees down [target], id ∈ wanted)
    (above : ∀ id ∈ reached graph.callers up [target], id ∈ wanted) :
    (graph.waysOf wanted up down target).map ChainStyle.pair.render =
      (reached graph.callees down [target]).map (pairBelow target) ++
        (reached graph.callers up [target]).map (pairAbove target) := by
  have forward := filter_trails_of_subset below
  have backward := filter_trails_of_subset above
  simp only [waysOf_eq_map_trails, forward, backward, List.map_append, List.map_map, reached]
  congr 1
  · exact List.map_congr_left fun trail found => render_pair_places found
  · exact List.map_congr_left fun trail found => render_pair_reverse_places found

/-- Tracing a method, collecting what is related to it, and listing its chains go through the same
methods in the same order: those within reach of it. -/
theorem traversals_agree (target : MethodId) (up down cap : Nat) :
    let traced := graph.trace target up down
    let below := traced.callees.map (·.method)
    let above := traced.callers.map (·.method)
    let related := graph.related [target] up down
    below = graph.related [target] 0 down ∧
    above = graph.related [target] up 0 ∧
    related = (below ++ above).eraseDups ∧
    (∀ id, id ∈ below ↔ id ≠ target ∧ Within graph.Calls [target] down id) ∧
    (∀ id, id ∈ above ↔ id ≠ target ∧ Within graph.CalledBy [target] up id) ∧
    graph.chains [target] related up down .pair cap =
      (((below.map fun id => target.displayName ++ " -> " ++ id.displayName) ++
        above.map fun id => id.displayName ++ " -> " ++ target.displayName).eraseDups).take cap := by
  intro traced below above related
  have callees : below = reached graph.callees down [target] :=
    graph.map_method_hops target down .forward
  have callers : above = reached graph.callers up [target] :=
    graph.map_method_hops target up .backward
  have joined : related = (below ++ above).eraseDups := by
    rw [callees, callers]
    exact graph.related_eq_eraseDups [target] up down
  refine ⟨?_, ?_, joined, fun id => ?_, fun id => ?_, ?_⟩
  · rw [callees, related_callees]
  · rw [callers, related_callers]
  · rw [callees, mem_reached_callees, List.mem_singleton]
  · rw [callers, mem_reached_callers, List.mem_singleton]
  · have known : ∀ id ∈ below ++ above, id ∈ related := by
      intro id member
      rwa [joined, List.mem_eraseDups]
    rw [callees, callers] at known
    have chained := graph.map_render_waysOf
      (fun id member => known id (List.mem_append_left _ member))
      (fun id member => known id (List.mem_append_right _ member))
    rw [chains, List.flatMap_singleton, chained, callees, callers]
    rfl

end CallContext.CallGraph
