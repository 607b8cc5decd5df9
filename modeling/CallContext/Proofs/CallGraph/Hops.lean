import CallContext.Proofs.CallGraph.Related
import CallContext.Proofs.Search.Trail

namespace CallContext

open Search

namespace CallGraph

theorem adjacent_forward (graph : CallGraph) :
    Adjacent (graph.neighbours .forward) = graph.Calls :=
  graph.adjacent_callees

theorem adjacent_backward (graph : CallGraph) :
    Adjacent (graph.neighbours .backward) = graph.CalledBy :=
  graph.adjacent_callers

def LedTo (target : MethodId) (hops : List Hop) (hop : Hop) : Prop :=
  hop.depth = 1 ∧ hop.via = target ∨
    ∃ before ∈ hops, before.method = hop.via ∧ before.depth + 1 = hop.depth

structure ShortestHops (graph : CallGraph) (next : MethodId → MethodId → Prop) (target : MethodId)
    (limit : Nat) (hops : List Hop) : Prop where
  nodup : (hops.map (·.method)).Nodup
  mem_iff : ∀ id, id ∈ hops.map (·.method) ↔
    ∃ depth, 1 ≤ depth ∧ depth ≤ limit ∧ IsDistance next [target] depth id
  depth : ∀ hop ∈ hops, IsDistance next [target] hop.depth hop.method
  adjacent : ∀ hop ∈ hops, next hop.via hop.method
  led : ∀ hop ∈ hops, LedTo target hops hop
  sorted : hops.Pairwise fun before after => before.depth ≤ after.depth
  location : ∀ hop ∈ hops, hop.location = graph.location hop.method

variable (graph : CallGraph) (target : MethodId) (limit : Nat) (direction : Direction)

theorem mem_hops (one : Hop) : one ∈ graph.hops target limit direction ↔
    ∃ trail ∈ trails (graph.neighbours direction) limit [target], graph.hop target trail = one := by
  rw [hops_eq_map_trails, List.mem_map]

theorem map_method_hops :
    (graph.hops target limit direction).map (·.method) =
      reached (graph.neighbours direction) limit [target] := by
  simp [hops_eq_map_trails, hop, reached, Function.comp_def]

theorem mem_map_method_hops (id : MethodId) :
    id ∈ (graph.hops target limit direction).map (·.method) ↔ ∃ depth, 1 ≤ depth ∧ depth ≤ limit ∧
      IsDistance (Adjacent (graph.neighbours direction)) [target] depth id := by
  rw [map_method_hops, mem_reached]
  constructor
  · rintro ⟨new, within⟩
    obtain ⟨depth, bound, distance⟩ := within.exists_isDistance
    refine ⟨depth, Nat.one_le_iff_ne_zero.mpr ?_, bound, distance⟩
    rintro rfl
    exact new (isDistance_zero_iff.mp distance)
  · rintro ⟨depth, positive, bound, distance⟩
    refine ⟨fun given => ?_, distance.1.mono bound⟩
    have nearest := distance.unique (isDistance_zero_iff.mpr given)
    omega

theorem ledTo_of_mem_trails {trail : Trail MethodId}
    (found : trail ∈ trails (graph.neighbours direction) limit [target]) :
    Adjacent (graph.neighbours direction) (graph.hop target trail).via trail.last ∧
      LedTo target (graph.hops target limit direction) (graph.hop target trail) := by
  obtain ⟨before, place, rfl, adjacent, ⟨start, given, rfl⟩ | earlier⟩ :=
    exists_before_of_mem_trails found
  · obtain rfl := List.mem_singleton.mp given
    exact ⟨adjacent, .inl ⟨rfl, rfl⟩⟩
  · have listed := (graph.mem_hops target limit direction _).mpr ⟨before, earlier, rfl⟩
    exact ⟨adjacent, .inr ⟨_, listed, rfl, rfl⟩⟩

theorem hops_shortest : ShortestHops graph (Adjacent (graph.neighbours direction)) target limit
    (graph.hops target limit direction) where
  nodup := by
    rw [map_method_hops]
    exact nodup_reached _ _ _
  mem_iff := graph.mem_map_method_hops target limit direction
  depth := by
    intro hop member
    obtain ⟨trail, found, rfl⟩ := (graph.mem_hops target limit direction hop).mp member
    exact (trails_explored _ _ _).distance trail found
  adjacent := by
    intro hop member
    obtain ⟨trail, found, rfl⟩ := (graph.mem_hops target limit direction hop).mp member
    exact (graph.ledTo_of_mem_trails target limit direction found).1
  led := by
    intro hop member
    obtain ⟨trail, found, rfl⟩ := (graph.mem_hops target limit direction hop).mp member
    exact (graph.ledTo_of_mem_trails target limit direction found).2
  sorted := by
    rw [hops_eq_map_trails]
    exact List.pairwise_map.mpr (trails_explored _ _ _).sorted
  location := by
    intro hop member
    obtain ⟨trail, -, rfl⟩ := (graph.mem_hops target limit direction hop).mp member
    rfl

theorem callees_shortest (up down : Nat) :
    ShortestHops graph graph.Calls target down (graph.trace target up down).callees := by
  rw [← adjacent_forward]
  exact graph.hops_shortest target down .forward

theorem callers_shortest (up down : Nat) :
    ShortestHops graph graph.CalledBy target up (graph.trace target up down).callers := by
  rw [← adjacent_backward]
  exact graph.hops_shortest target up .backward

variable {graph} {target} {limit}

theorem ShortestHops.exists_hop_iff {next : MethodId → MethodId → Prop} {hops : List Hop}
    (shortest : ShortestHops graph next target limit hops) (id : MethodId) (depth : Nat) :
    (∃ hop ∈ hops, hop.method = id ∧ hop.depth = depth) ↔
      1 ≤ depth ∧ depth ≤ limit ∧ IsDistance next [target] depth id := by
  constructor
  · rintro ⟨hop, member, rfl, rfl⟩
    obtain ⟨depth, positive, bound, distance⟩ :=
      (shortest.mem_iff hop.method).mp (List.mem_map_of_mem member)
    rw [(shortest.depth hop member).unique distance]
    exact ⟨positive, bound, distance⟩
  · rintro ⟨positive, bound, distance⟩
    obtain ⟨hop, member, rfl⟩ :=
      List.mem_map.mp ((shortest.mem_iff id).mpr ⟨depth, positive, bound, distance⟩)
    exact ⟨hop, member, rfl, (shortest.depth hop member).unique distance⟩

/-- A trace lists exactly the methods within its limits, by shortest distance, each with a method one
step nearer; and one method is a callee of another where that one is a caller of it. -/
theorem trace_shortest (graph : CallGraph) (target : MethodId) (up down : Nat) :
    let traced := graph.trace target up down
    traced.location = graph.location target ∧
    ShortestHops graph graph.Calls target down traced.callees ∧
    ShortestHops graph graph.CalledBy target up traced.callers ∧
    ∀ other depth limit,
      (∃ hop ∈ (graph.trace target up limit).callees, hop.method = other ∧ hop.depth = depth) ↔
        ∃ hop ∈ (graph.trace other limit down).callers, hop.method = target ∧ hop.depth = depth := by
  intro traced
  refine ⟨rfl, graph.callees_shortest target up down, graph.callers_shortest target up down,
    fun other depth limit => ?_⟩
  have mirrored : IsDistance graph.CalledBy [other] depth target ↔
      IsDistance graph.Calls [target] depth other :=
    isDistance_reverse_iff
  rw [(graph.callees_shortest target up limit).exists_hop_iff,
    (graph.callers_shortest other limit down).exists_hop_iff, mirrored]

end CallGraph

end CallContext
