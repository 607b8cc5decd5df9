import CallContext.Search
import CallContext.Proofs.Search.Walk

/-!
Breadth-first search finds what is near. The invariant of a search is that its level holds exactly the
places at one distance and that it has seen exactly the places up to that distance. The search then
finds every unseen place within its limit once, along a trail as long as the place is far, nearer
places first.
-/

namespace CallContext.Search

variable {α : Type}

variable (neighbours : α → List α) (starts : List α)

def Adjacent (before place : α) : Prop :=
  place ∈ neighbours before

structure Frontier (depth : Nat) (seen : List α) (level : List (Trail α)) : Prop where
  distance : ∀ trail ∈ level, trail.length = depth ∧
    IsDistance (Adjacent neighbours) starts depth trail.last
  complete : ∀ place, IsDistance (Adjacent neighbours) starts depth place →
    place ∈ level.map (·.last)
  seen_iff : ∀ place, place ∈ seen ↔ Within (Adjacent neighbours) starts depth place

theorem frontier_starts :
    Frontier neighbours starts 0 starts (starts.map fun start => ⟨start, []⟩) where
  distance := by
    intro trail member
    obtain ⟨start, given, rfl⟩ := List.mem_map.mp member
    exact ⟨rfl, isDistance_zero_iff.mpr given⟩
  complete := by
    intro place distance
    have given := isDistance_zero_iff.mp distance
    simpa [List.map_map, Function.comp_def] using given
  seen_iff := fun place => within_zero_iff.symm

variable [DecidableEq α]

theorem fresh_sublist (seen : List α) (trails : List (Trail α)) :
    (fresh seen trails).Sublist trails := by
  induction trails generalizing seen with
  | nil => exact List.Sublist.refl []
  | cons trail rest ih =>
      rw [fresh]
      split_ifs
      · exact (ih seen).cons trail
      · exact (ih (trail.last :: seen)).cons_cons trail

theorem mem_last_fresh (seen : List α) (trails : List (Trail α)) (place : α) :
    place ∈ (fresh seen trails).map (·.last) ↔ place ∈ trails.map (·.last) ∧ place ∉ seen := by
  induction trails generalizing seen with
  | nil => simp [fresh]
  | cons trail rest ih =>
      rw [fresh]
      split_ifs with old
      · rw [ih, List.map_cons, List.mem_cons]
        constructor
        · rintro ⟨later, new⟩
          exact ⟨.inr later, new⟩
        · rintro ⟨rfl | later, new⟩
          · exact absurd old new
          · exact ⟨later, new⟩
      · rw [List.map_cons, List.mem_cons, ih, List.map_cons, List.mem_cons, List.mem_cons]
        by_cases equal : place = trail.last
        · simp [equal, old]
        · simp [equal]

theorem nodup_last_fresh (seen : List α) (trails : List (Trail α)) :
    ((fresh seen trails).map (·.last)).Nodup := by
  induction trails generalizing seen with
  | nil => simp [fresh]
  | cons trail rest ih =>
      rw [fresh]
      split_ifs
      · exact ih seen
      · rw [List.map_cons, List.nodup_cons]
        refine ⟨fun again => ?_, ih _⟩
        have new := ((mem_last_fresh _ rest trail.last).mp again).2
        exact new (by simp)

variable {neighbours starts}

theorem exists_step_of_mem_nextLevel {seen : List α} {level : List (Trail α)} {trail : Trail α}
    (found : trail ∈ nextLevel neighbours seen level) :
    ∃ before ∈ level, ∃ place, Adjacent neighbours before.last place ∧ trail = before.step place := by
  obtain ⟨before, member, longer⟩ := List.mem_flatMap.mp ((fresh_sublist _ _).mem found)
  obtain ⟨place, adjacent, rfl⟩ := List.mem_map.mp longer
  exact ⟨before, member, place, adjacent, rfl⟩

namespace Frontier

variable {depth : Nat} {seen : List α} {level : List (Trail α)}

theorem mem_nextLevel_iff (frontier : Frontier neighbours starts depth seen level) (place : α) :
    place ∈ (nextLevel neighbours seen level).map (·.last) ↔
      IsDistance (Adjacent neighbours) starts (depth + 1) place := by
  rw [nextLevel, mem_last_fresh, frontier.seen_iff, isDistance_succ_iff, and_comm]
  refine and_congr_right fun _ => ?_
  simp only [List.map_flatMap, List.mem_flatMap, List.map_map, List.mem_map, Function.comp_apply,
    Trail.step]
  constructor
  · rintro ⟨trail, member, _, adjacent, rfl⟩
    exact ⟨trail.last, (frontier.distance trail member).2, adjacent⟩
  · rintro ⟨before, distance, adjacent⟩
    obtain ⟨trail, member, rfl⟩ := List.mem_map.mp (frontier.complete before distance)
    exact ⟨trail, member, place, adjacent, rfl⟩

theorem length_nextLevel (frontier : Frontier neighbours starts depth seen level) {trail : Trail α}
    (found : trail ∈ nextLevel neighbours seen level) : trail.length = depth + 1 := by
  obtain ⟨before, member, place, -, rfl⟩ := exists_step_of_mem_nextLevel found
  have length := (frontier.distance before member).1
  simpa [Trail.step, Trail.length] using length

theorem next (frontier : Frontier neighbours starts depth seen level) :
    Frontier neighbours starts (depth + 1)
      ((nextLevel neighbours seen level).map (·.last) ++ seen) (nextLevel neighbours seen level) where
  distance := fun trail found => ⟨frontier.length_nextLevel found,
    (frontier.mem_nextLevel_iff trail.last).mp (List.mem_map_of_mem found)⟩
  complete := fun place => (frontier.mem_nextLevel_iff place).mpr
  seen_iff := by
    intro place
    rw [List.mem_append, frontier.mem_nextLevel_iff, frontier.seen_iff]
    constructor
    · rintro (distance | near)
      · exact distance.1
      · exact near.mono (Nat.le_succ depth)
    · intro within
      by_cases near : Within (Adjacent neighbours) starts depth place
      · exact .inr near
      · exact .inl ⟨within, fun m less nearer => near (nearer.mono (Nat.le_of_lt_succ less))⟩

theorem seen_of_nextLevel_eq_nil (frontier : Frontier neighbours starts depth seen level)
    (nothing : nextLevel neighbours seen level = []) {limit : Nat} {place : α}
    (within : Within (Adjacent neighbours) starts limit place) : place ∈ seen := by
  obtain ⟨n, -, distance⟩ := within.exists_isDistance
  rw [frontier.seen_iff]
  by_contra far
  have beyond : depth + 1 ≤ n := by
    by_contra near
    exact far (distance.1.mono (by omega))
  obtain ⟨before, edge⟩ := distance.exists_at beyond
  have found := (frontier.mem_nextLevel_iff before).mpr edge
  simp [nothing] at found

end Frontier

structure Explored (neighbours : α → List α) (starts : List α) (depth limit : Nat) (seen : List α)
    (found : List (Trail α)) : Prop where
  deeper : ∀ trail ∈ found, depth < trail.length
  distance : ∀ trail ∈ found, IsDistance (Adjacent neighbours) starts trail.length trail.last
  nodup : (found.map (·.last)).Nodup
  sorted : found.Pairwise fun before after => before.length ≤ after.length
  mem_iff : ∀ place, place ∈ found.map (·.last) ↔
    place ∉ seen ∧ Within (Adjacent neighbours) starts (depth + limit) place

theorem Frontier.explored_nil {depth limit : Nat} {seen : List α} {level : List (Trail α)}
    (frontier : Frontier neighbours starts depth seen level)
    (done : limit = 0 ∨ nextLevel neighbours seen level = []) :
    Explored neighbours starts depth limit seen [] where
  deeper := by simp
  distance := by simp
  nodup := by simp
  sorted := by simp
  mem_iff := by
    intro place
    simp only [List.map_nil, List.not_mem_nil, false_iff, not_and]
    intro new within
    refine new ?_
    rcases done with rfl | nothing
    · exact (frontier.seen_iff place).mpr within
    · exact frontier.seen_of_nextLevel_eq_nil nothing within

theorem Frontier.explored_append {depth limit : Nat} {seen : List α} {level rest : List (Trail α)}
    (frontier : Frontier neighbours starts depth seen level)
    (explored : Explored neighbours starts (depth + 1) limit
      ((nextLevel neighbours seen level).map (·.last) ++ seen) rest) :
    Explored neighbours starts depth (limit + 1) seen (nextLevel neighbours seen level ++ rest) where
  deeper := by
    intro trail member
    rcases List.mem_append.mp member with found | later
    · rw [frontier.length_nextLevel found]
      exact Nat.lt_succ_self depth
    · exact (Nat.lt_succ_self depth).trans (explored.deeper trail later)
  distance := by
    intro trail member
    rcases List.mem_append.mp member with found | later
    · rw [frontier.length_nextLevel found]
      exact (frontier.next.distance trail found).2
    · exact explored.distance trail later
  nodup := by
    rw [List.map_append, List.nodup_append]
    refine ⟨nodup_last_fresh _ _, explored.nodup, fun place found other later => ?_⟩
    rintro rfl
    exact ((explored.mem_iff place).mp later).1 (List.mem_append_left _ found)
  sorted := by
    rw [List.pairwise_append]
    refine ⟨?_, explored.sorted, fun before found after later => ?_⟩
    · refine List.pairwise_of_forall_mem_list fun before found after found' => ?_
      rw [frontier.length_nextLevel found, frontier.length_nextLevel found']
    · rw [frontier.length_nextLevel found]
      exact (explored.deeper after later).le
  mem_iff := by
    intro place
    have deeper : depth + 1 + limit = depth + (limit + 1) := by omega
    rw [List.map_append, List.mem_append, explored.mem_iff, List.mem_append, deeper,
      frontier.mem_nextLevel_iff]
    constructor
    · rintro (distance | ⟨new, within⟩)
      · refine ⟨fun old => ?_, distance.1.mono (by omega)⟩
        exact distance.2 depth (Nat.lt_succ_self depth) ((frontier.seen_iff place).mp old)
      · exact ⟨fun old => new (.inr old), within⟩
    · rintro ⟨new, within⟩
      -- A place that is new here is one step deeper, or the rest of the search finds it.
      by_cases distance : IsDistance (Adjacent neighbours) starts (depth + 1) place
      · exact .inl distance
      · exact .inr ⟨fun known => known.elim distance new, within⟩

theorem Frontier.explored {depth : Nat} {seen : List α} {level : List (Trail α)}
    (frontier : Frontier neighbours starts depth seen level) (limit : Nat) :
    Explored neighbours starts depth limit seen (levels neighbours limit seen level) := by
  induction limit generalizing depth seen level with
  | zero => exact frontier.explored_nil (.inl rfl)
  | succ limit ih =>
      rw [levels]
      split_ifs with nothing
      · exact frontier.explored_nil (.inr (List.isEmpty_iff.mp nothing))
      · exact frontier.explored_append (ih frontier.next)

theorem trails_explored (neighbours : α → List α) (limit : Nat) (starts : List α) :
    Explored neighbours starts 0 limit starts (trails neighbours limit starts) :=
  (frontier_starts neighbours starts).explored limit

theorem mem_reached (neighbours : α → List α) (limit : Nat) (starts : List α) (place : α) :
    place ∈ reached neighbours limit starts ↔
      place ∉ starts ∧ Within (Adjacent neighbours) starts limit place := by
  rw [reached, (trails_explored neighbours limit starts).mem_iff, Nat.zero_add]

theorem nodup_reached (neighbours : α → List α) (limit : Nat) (starts : List α) :
    (reached neighbours limit starts).Nodup :=
  (trails_explored neighbours limit starts).nodup

theorem reached_sorted (neighbours : α → List α) (limit : Nat) (starts : List α) :
    (reached neighbours limit starts).Pairwise fun before after => ∃ m n,
      IsDistance (Adjacent neighbours) starts m before ∧
        IsDistance (Adjacent neighbours) starts n after ∧ m ≤ n := by
  have explored := trails_explored neighbours limit starts
  rw [reached, List.pairwise_map]
  refine explored.sorted.imp_of_mem fun before after le => ?_
  exact ⟨_, _, explored.distance _ before, explored.distance _ after, le⟩

end CallContext.Search
