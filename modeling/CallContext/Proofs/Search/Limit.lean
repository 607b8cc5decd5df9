import CallContext.Proofs.Search.Levels

namespace CallContext.Search

variable {α : Type} [DecidableEq α] {neighbours others : α → List α}

theorem levels_congr {inside : α → Prop}
    (same : ∀ place, inside place → neighbours place = others place)
    (closed : ∀ place, inside place → ∀ next ∈ neighbours place, inside next) (limit : Nat)
    (seen : List α) (level : List (Trail α)) (initial : ∀ trail ∈ level, inside trail.last) :
    levels neighbours limit seen level = levels others limit seen level := by
  induction limit generalizing seen level with
  | zero => rfl
  | succ limit ih =>
      have next : nextLevel neighbours seen level = nextLevel others seen level := by
        have steps : (level.flatMap fun trail => (neighbours trail.last).map trail.step) =
            level.flatMap fun trail => (others trail.last).map trail.step := by
          refine List.flatMap_congr fun trail member => ?_
          rw [same trail.last (initial trail member)]
        rw [nextLevel, nextLevel, steps]
      have onward : ∀ trail ∈ nextLevel neighbours seen level, inside trail.last := by
        intro trail found
        obtain ⟨before, member, place, adjacent, rfl⟩ := exists_step_of_mem_nextLevel found
        exact closed before.last (initial before member) place adjacent
      rw [levels, levels, ← next, ih _ _ onward]

theorem reached_congr {inside : α → Prop}
    (same : ∀ place, inside place → neighbours place = others place)
    (closed : ∀ place, inside place → ∀ next ∈ neighbours place, inside next) (limit : Nat)
    {starts : List α} (initial : ∀ start ∈ starts, inside start) :
    reached neighbours limit starts = reached others limit starts := by
  have level : ∀ trail ∈ starts.map fun start => Trail.mk start [], inside trail.last := by
    intro trail member
    obtain ⟨start, given, rfl⟩ := List.mem_map.mp member
    exact initial start given
  rw [reached, reached, trails, trails, levels_congr same closed limit starts _ level]

variable {places : List α}

theorem mem_of_mem_reached (covered : ∀ place, ∀ next ∈ neighbours place, next ∈ places) {limit : Nat}
    {starts : List α} {place : α} (found : place ∈ reached neighbours limit starts) : place ∈ places := by
  obtain ⟨new, start, member, steps, -, walk⟩ := (mem_reached neighbours limit starts place).mp found
  cases walk with
  | refl => exact absurd member new
  | step _ adjacent => exact covered _ place adjacent

theorem last_mem_unseen (covered : ∀ place, ∀ next ∈ neighbours place, next ∈ places) {seen : List α}
    {level : List (Trail α)} {trail : Trail α} (found : trail ∈ nextLevel neighbours seen level) :
    trail.last ∈ places.filter (· ∉ seen) := by
  obtain ⟨before, -, place, adjacent, rfl⟩ := exists_step_of_mem_nextLevel found
  have new : place ∉ seen := ((mem_last_fresh _ _ place).mp (List.mem_map_of_mem found)).2
  simpa [Trail.step, new] using covered before.last place adjacent

theorem nextLevel_eq_nil (covered : ∀ place, ∀ next ∈ neighbours place, next ∈ places) {seen : List α}
    (level : List (Trail α)) (none : (places.filter (· ∉ seen)).length ≤ 0) :
    nextLevel neighbours seen level = [] := by
  refine List.eq_nil_iff_forall_not_mem.mpr fun trail found => ?_
  have member := last_mem_unseen covered found
  rw [List.length_eq_zero_iff.mp (Nat.le_zero.mp none)] at member
  exact List.not_mem_nil member

theorem length_unseen_lt (covered : ∀ place, ∀ next ∈ neighbours place, next ∈ places) {seen : List α}
    {level : List (Trail α)} (some : nextLevel neighbours seen level ≠ []) :
    (places.filter (· ∉ (nextLevel neighbours seen level).map (·.last) ++ seen)).length <
      (places.filter (· ∉ seen)).length := by
  obtain ⟨trail, found⟩ := List.exists_mem_of_ne_nil _ some
  have split : places.filter (· ∉ (nextLevel neighbours seen level).map (·.last) ++ seen) =
      (places.filter (· ∉ seen)).filter (· ∉ (nextLevel neighbours seen level).map (·.last)) := by
    simp only [List.filter_filter, List.mem_append, not_or, Bool.decide_and]
  rw [split, List.length_filter_lt_length_iff_exists]
  exact ⟨trail.last, last_mem_unseen covered found, by simpa using ⟨trail, found, rfl⟩⟩

theorem levels_add_limit (covered : ∀ place, ∀ next ∈ neighbours place, next ∈ places) (limit more : Nat)
    (seen : List α) (level : List (Trail α)) (enough : (places.filter (· ∉ seen)).length ≤ limit) :
    levels neighbours (limit + more) seen level = levels neighbours limit seen level := by
  -- A level that finds something leaves fewer places to the levels after it.
  induction limit generalizing seen level with
  | zero =>
      have nothing := nextLevel_eq_nil covered level enough
      cases more with
      | zero => rfl
      | succ more =>
          have stopped : levels neighbours 0 seen level = [] := rfl
          rw [stopped, Nat.zero_add, levels, nothing]
          rfl
  | succ limit ih =>
      rw [Nat.succ_add, levels, levels]
      split_ifs with nothing
      · rfl
      · have fewer := length_unseen_lt covered (List.isEmpty_iff.not.mp nothing)
        rw [ih _ _ (by omega)]

theorem reached_of_le (covered : ∀ place, ∀ next ∈ neighbours place, next ∈ places) {limit more : Nat}
    (enough : places.length ≤ limit) (le : limit ≤ more) (starts : List α) :
    reached neighbours more starts = reached neighbours limit starts := by
  obtain ⟨extra, rfl⟩ := Nat.exists_eq_add_of_le le
  have unseen : (places.filter (· ∉ starts)).length ≤ limit :=
    (List.length_filter_le _ _).trans enough
  rw [reached, reached, trails, trails, levels_add_limit covered limit extra starts _ unseen]

end CallContext.Search
