import Mathlib.Data.List.Chain
import Mathlib.Data.List.Nodup
import CallContext.Proofs.Search.Levels

namespace CallContext.Search

variable {α : Type}

namespace Trail

def start (trail : Trail α) : α :=
  (trail.last :: trail.before).getLast (by simp)

theorem start_step (trail : Trail α) (place : α) : (trail.step place).start = trail.start := by
  simp [start, step]

theorem head?_places (trail : Trail α) : trail.places.head? = some trail.start := by
  rw [places, List.head?_reverse, start, List.getLast?_eq_some_getLast]

@[simp]
theorem length_step (trail : Trail α) (place : α) :
    (trail.step place).length = trail.length + 1 := by
  simp [length, step]

theorem length_places (trail : Trail α) : trail.places.length = trail.length + 1 := by
  simp [places, length]

theorem places_step (trail : Trail α) (place : α) :
    (trail.step place).places = trail.places ++ [place] := by
  simp [places, step]

theorem getLast?_places (trail : Trail α) : trail.places.getLast? = some trail.last := by
  simp [places]

end Trail

variable [DecidableEq α]

theorem forall_mem_levels {neighbours : α → List α} {holds : Trail α → Prop} (limit : Nat)
    (seen : List α) (level : List (Trail α)) (initial : ∀ trail ∈ level, holds trail)
    (kept : ∀ before place, holds before → Adjacent neighbours before.last place →
      before.step place ∈ levels neighbours limit seen level → holds (before.step place)) :
    ∀ trail ∈ levels neighbours limit seen level, holds trail := by
  induction limit generalizing seen level with
  | zero => simp [levels]
  | succ limit ih =>
      rw [levels] at kept ⊢
      split_ifs at kept ⊢
      · simp
      · have next : ∀ trail ∈ nextLevel neighbours seen level, holds trail := by
          intro trail found
          obtain ⟨before, member, place, adjacent, rfl⟩ := exists_step_of_mem_nextLevel found
          exact kept before place (initial before member) adjacent (List.mem_append_left _ found)
        intro trail found
        rcases List.mem_append.mp found with here | deeper
        · exact next trail here
        · refine ih _ _ next (fun before place held adjacent later => ?_) trail deeper
          exact kept before place held adjacent (List.mem_append_right _ later)

section

variable {neighbours : α → List α} {limit : Nat} {starts : List α}

@[elab_as_elim]
theorem trails_induction {motive : Trail α → Prop} (initial : ∀ start ∈ starts, motive ⟨start, []⟩)
    (kept : ∀ before place, motive before → Adjacent neighbours before.last place →
      before.step place ∈ trails neighbours limit starts → motive (before.step place))
    {trail : Trail α} (found : trail ∈ trails neighbours limit starts) : motive trail := by
  refine forall_mem_levels limit starts _ (fun trail member => ?_) kept trail found
  obtain ⟨start, given, rfl⟩ := List.mem_map.mp member
  exact initial start given

theorem start_of_mem_trails {trail : Trail α} (found : trail ∈ trails neighbours limit starts) :
    trail.start ∈ starts := by
  refine trails_induction (fun start given => given) (fun before place started _ _ => ?_) found
  rwa [Trail.start_step]

theorem exists_before_of_mem_trails {trail : Trail α}
    (found : trail ∈ trails neighbours limit starts) :
    ∃ before place, trail = before.step place ∧ Adjacent neighbours before.last place ∧
      ((∃ start ∈ starts, before = ⟨start, []⟩) ∨ before ∈ trails neighbours limit starts) := by
  have known : (∃ start ∈ starts, trail = ⟨start, []⟩) ∨
      trail ∈ trails neighbours limit starts ∧
        ∃ before place, trail = before.step place ∧ Adjacent neighbours before.last place ∧
          ((∃ start ∈ starts, before = ⟨start, []⟩) ∨ before ∈ trails neighbours limit starts) := by
    refine trails_induction (fun start given => .inl ⟨start, given, rfl⟩) ?_ found
    intro before place held adjacent later
    exact .inr ⟨later, before, place, rfl, adjacent, held.imp_right fun earlier => earlier.1⟩
  rcases known with ⟨start, given, rfl⟩ | ⟨-, onward⟩
  · exact absurd ((trails_explored neighbours limit starts).deeper _ found) (Nat.lt_irrefl 0)
  · exact onward

theorem isChain_places {trail : Trail α} (found : trail ∈ trails neighbours limit starts) :
    trail.places.IsChain (Adjacent neighbours) := by
  refine trails_induction (fun start _ => List.isChain_singleton start) ?_ found
  intro before place chained adjacent _
  rw [Trail.places_step]
  refine chained.append (List.isChain_singleton place) fun last ended next begun => ?_
  rw [before.getLast?_places, Option.mem_some_iff] at ended
  rw [List.head?_singleton, Option.mem_some_iff] at begun
  rwa [← ended, ← begun]

theorem length_le_limit {trail : Trail α} (found : trail ∈ trails neighbours limit starts) :
    trail.length ≤ limit := by
  have explored := trails_explored neighbours limit starts
  have within := ((explored.mem_iff trail.last).mp (List.mem_map_of_mem found)).2
  rw [Nat.zero_add] at within
  by_contra longer
  exact (explored.distance trail found).2 limit (by omega) within

theorem eq_of_last_eq {trail other : Trail α} (found : trail ∈ trails neighbours limit starts)
    (found' : other ∈ trails neighbours limit starts) (same : trail.last = other.last) :
    trail = other :=
  List.inj_on_of_nodup_map (trails_explored neighbours limit starts).nodup found found' same

theorem isDistance_getElem_places {trail : Trail α}
    (found : trail ∈ trails neighbours limit starts) :
    ∀ n, ∀ bound : n < trail.places.length,
      IsDistance (Adjacent neighbours) starts n trail.places[n] := by
  refine trails_induction (fun start given n bound => ?_) ?_ found
  · obtain rfl : n = 0 := Nat.lt_one_iff.mp bound
    exact isDistance_zero_iff.mpr given
  · intro before place nearer _ later n bound
    simp only [Trail.places_step] at bound ⊢
    by_cases inside : n < before.places.length
    · rw [List.getElem_append_left inside]
      exact nearer n inside
    · -- The last place is as far as its trail is long.
      obtain rfl : n = before.places.length := by
        rw [List.length_append, List.length_singleton] at bound
        omega
      rw [List.getElem_concat_length rfl, Trail.length_places, ← Trail.length_step]
      exact (trails_explored neighbours limit starts).distance _ later

theorem nodup_places {trail : Trail α} (found : trail ∈ trails neighbours limit starts) :
    trail.places.Nodup := by
  refine List.nodup_iff_injective_get.mpr fun i j same => ?_
  have left := isDistance_getElem_places found i.val i.isLt
  have right := isDistance_getElem_places found j.val j.isLt
  rw [List.get_eq_getElem, List.get_eq_getElem] at same
  rw [same] at left
  exact Fin.ext (left.unique right)

end

end CallContext.Search
