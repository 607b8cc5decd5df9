import CallContext.CallGraph.Chains
import CallContext.CallGraph.Related
import CallContext.CallGraph.Trace
import CallContext.Proofs.Collection.Distinct
import CallContext.Proofs.Search.Queue

/-!
The traversals of a call graph go in step. Each goes through its queue by itself and keeps something else
about what it has seen: the methods, the hops, or the method from which each was found. While one search
with a queue runs, all of them have the same methods waiting, so that what each lists can be read off the
trails of that search.
-/

namespace CallContext

open Collection Search

namespace CallGraph

def queue (waiting : List (Trail MethodId)) : List (MethodId × Nat) :=
  waiting.map fun trail => (trail.last, trail.length)

theorem queue_append_onward (neighbours : MethodId → List MethodId) (waiting : List (Trail MethodId))
    (seen : List MethodId) (trail : Trail MethodId) :
    queue (waiting ++ onward neighbours seen trail) =
      queue waiting ++ (unseen seen (neighbours trail.last)).map (·, trail.length + 1) := by
  simp [queue, onward, Function.comp_def, Trail.step, Trail.length]

theorem queue_starts (starts : List MethodId) :
    queue (starts.map fun start => ⟨start, []⟩) = starts.map (·, 0) := by
  simp [queue, Function.comp_def, Trail.length]

variable (graph : CallGraph) {direction : Direction} {limit : Nat} {waiting found : List (Trail MethodId)}
  {seen : List MethodId}

theorem relatedFrom_queue (run : Finds (graph.neighbours direction) limit waiting seen found) :
    graph.relatedFrom direction limit seen (queue waiting) = found.map (·.last) := by
  induction run with
  | done seen =>
      rw [queue, List.map_nil, relatedFrom, List.map_nil]
  | skip far _ ih =>
      rw [queue, List.map_cons, relatedFrom, if_pos far]
      exact ih
  | visit near _ ih =>
      rw [queue_append_onward] at ih
      rw [queue, List.map_cons, relatedFrom, if_neg (Nat.not_le.mpr near), List.map_append, ← ih]
      simp [queue, onward, Function.comp_def, Trail.step]

theorem relatedIn_eq_reached (seeds : List MethodId) (limit : Nat) (direction : Direction) :
    graph.relatedIn seeds limit direction = reached (graph.neighbours direction) limit seeds := by
  unfold relatedIn
  split_ifs with nothing
  · rw [nothing]
    rfl
  · have run := graph.relatedFrom_queue (finds_trails (graph.neighbours direction) limit seeds)
    rwa [queue_starts] at run

theorem related_eq_eraseDups (seeds : List MethodId) (up down : Nat) :
    graph.related seeds up down =
      (reached graph.callees down seeds ++ reached graph.callers up seeds).eraseDups := by
  have apart : ∀ id ∈ (reached graph.callees down seeds ++ reached graph.callers up seeds).eraseDups,
      id ∉ seeds := by
    intro id member
    rcases List.mem_append.mp (List.mem_eraseDups.mp member) with below | above
    · exact ((mem_reached _ _ _ id).mp below).1
    · exact ((mem_reached _ _ _ id).mp above).1
  unfold related
  rw [relatedIn_eq_reached, relatedIn_eq_reached]
  split_ifs with nothing
  · have still (neighbours : MethodId → List MethodId) (limit : Nat) :
        reached neighbours limit [] = [] := by cases limit <;> rfl
    rw [List.isEmpty_iff.mp nothing, still, still]
    rfl
  · exact List.filter_eq_self.mpr fun id member => decide_eq_true (apart id member)

def hop (target : MethodId) (trail : Trail MethodId) : Hop where
  method := trail.last
  depth := trail.length
  via := trail.before.head?.getD target
  location := graph.location trail.last

theorem hopsFrom_queue (target : MethodId)
    (run : Finds (graph.neighbours direction) limit waiting seen found) :
    graph.hopsFrom direction limit seen (queue waiting) = found.map (graph.hop target) := by
  induction run with
  | done seen =>
      rw [queue, List.map_nil, hopsFrom, List.map_nil]
  | skip far _ ih =>
      rw [queue, List.map_cons, hopsFrom, if_pos far]
      exact ih
  | visit near _ ih =>
      rw [queue_append_onward] at ih
      rw [queue, List.map_cons, hopsFrom, if_neg (Nat.not_le.mpr near), List.map_append, ← ih]
      simp [queue, onward, hop, Function.comp_def, Trail.step, Trail.length]

theorem hops_eq_map_trails (target : MethodId) (limit : Nat) (direction : Direction) :
    graph.hops target limit direction =
      (trails (graph.neighbours direction) limit [target]).map (graph.hop target) := by
  have run := graph.hopsFrom_queue target (finds_trails (graph.neighbours direction) limit [target])
  rwa [queue_starts] at run

namespace Parents

variable {parents : Parents} {before : MethodId} {ids : List MethodId}

theorem wayBack_found_of_not_mem {id : MethodId} (old : id ∉ ids) :
    (parents.found before ids).wayBack id = parents.wayBack id := by
  induction ids with
  | nil => rfl
  | cons first rest ih =>
      obtain ⟨other, later⟩ := not_or.mp (List.mem_cons.not.mp old)
      have added : parents.found before (first :: rest) =
          (first, some before) :: parents.found before rest := rfl
      rw [added, wayBack, if_neg (Ne.symm other), ih later]

theorem wayBack_found_of_mem {id : MethodId} (new : id ∈ ids) (apart : before ∉ ids) :
    (parents.found before ids).wayBack id = id :: parents.wayBack before := by
  induction ids with
  | nil => cases new
  | cons first rest ih =>
      have later : before ∉ rest := fun member => apart (List.mem_cons_of_mem _ member)
      have added : parents.found before (first :: rest) =
          (first, some before) :: parents.found before rest := rfl
      rw [added, wayBack]
      split_ifs with here
      · rw [wayBack_found_of_not_mem later]
      · exact ih ((List.mem_cons.mp new).resolve_left (Ne.symm here)) later

structure Records (parents : Parents) (trail : Trail MethodId) : Prop where
  seen : trail.last ∈ parents.seen
  wayBack : parents.wayBack trail.last = trail.last :: trail.before

theorem Records.keep {trail : Trail MethodId} (records : parents.Records trail)
    (new : ∀ id ∈ ids, id ∉ parents.seen) : (parents.found before ids).Records trail where
  seen := by
    rw [seen_found]
    exact List.mem_append_right ids records.seen
  wayBack := by
    rw [wayBack_found_of_not_mem fun member => new _ member records.seen]
    exact records.wayBack

theorem Records.step {trail : Trail MethodId} (records : parents.Records trail)
    (new : ∀ id ∈ ids, id ∉ parents.seen) {id : MethodId} (member : id ∈ ids) :
    (parents.found trail.last ids).Records (trail.step id) where
  seen := by
    rw [seen_found]
    exact List.mem_append_left _ member
  wayBack := by
    have next : (parents.found trail.last ids).wayBack id = id :: parents.wayBack trail.last :=
      wayBack_found_of_mem member fun again => new _ again records.seen
    rw [records.wayBack] at next
    exact next

end Parents

theorem waysFrom_queue (wanted : List MethodId) {parents : Parents}
    (run : Finds (graph.neighbours direction) limit waiting seen found)
    (known : parents.seen = seen) (records : ∀ trail ∈ waiting, parents.Records trail) :
    graph.waysFrom direction limit wanted parents (queue waiting) =
      (found.filter (wanted.contains ·.last)).map (·.places) := by
  -- All along the run the parents lead back along every trail that waits.
  induction run generalizing parents with
  | done seen =>
      rw [queue, List.map_nil, waysFrom, List.filter_nil, List.map_nil]
  | skip far _ ih =>
      rw [queue, List.map_cons, waysFrom, if_pos far]
      exact ih known (List.forall_mem_cons.mp records).2
  | @visit trail waiting _ found near _ ih =>
      subst known
      obtain ⟨first, others⟩ := List.forall_mem_cons.mp records
      have new : ∀ id ∈ unseen parents.seen (graph.neighbours direction trail.last),
          id ∉ parents.seen := fun id member =>
        of_decide_eq_true (List.mem_filter.mp (List.mem_eraseDups.mp member)).2
      have onwards : ∀ later ∈ waiting ++ onward (graph.neighbours direction) parents.seen trail,
          (parents.found trail.last
            (unseen parents.seen (graph.neighbours direction trail.last))).Records later := by
        intro later member
        rcases List.mem_append.mp member with old | next
        · exact (others later old).keep new
        · obtain ⟨id, listed, rfl⟩ := List.mem_map.mp next
          exact first.step new listed
      have rest := ih (Parents.seen_found _ _ _) onwards
      rw [queue_append_onward] at rest
      rw [queue, List.map_cons, waysFrom, if_neg (Nat.not_le.mpr near), List.filter_append,
        List.map_append, ← rest, onward, List.filter_map, List.map_map]
      dsimp only
      congr 1
      refine List.map_congr_left fun id listed => ?_
      have way := (first.step new (List.mem_filter.mp listed).1).wayBack
      exact congrArg List.reverse way

theorem waysIn_eq_map_trails (wanted : List MethodId) (limit : Nat) (direction : Direction)
    (seed : MethodId) : graph.waysIn wanted limit direction seed =
      ((trails (graph.neighbours direction) limit [seed]).filter (wanted.contains ·.last)).map
        (·.places) := by
  unfold waysIn
  split_ifs with nothing
  · rw [nothing]
    rfl
  · have start : ∀ trail ∈ [seed].map fun start => Trail.mk start [],
        Parents.Records [(seed, none)] trail := by
      intro trail member
      obtain rfl := List.mem_singleton.mp member
      exact ⟨List.mem_cons_self, by simp [Parents.wayBack]⟩
    have seen : Parents.seen [(seed, none)] = [seed] := rfl
    have run := graph.waysFrom_queue wanted
      (finds_trails (graph.neighbours direction) limit [seed]) seen start
    rwa [queue_starts] at run

theorem waysOf_eq_map_trails (wanted : List MethodId) (up down : Nat) (seed : MethodId) :
    graph.waysOf wanted up down seed =
      ((trails graph.callees down [seed]).filter (wanted.contains ·.last)).map (·.places) ++
        (((trails graph.callers up [seed]).filter (wanted.contains ·.last)).map (·.places)).map
          List.reverse := by
  rw [waysOf, waysIn_eq_map_trails, waysIn_eq_map_trails, neighbours, neighbours]

end CallGraph

end CallContext
