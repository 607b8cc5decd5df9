import CallContext.Proofs.Search.Worklist

/-!
Search with a queue within a limit. Here a place is seen once it is put into the queue, so none waits twice,
and what is found is listed in the order in which it is put in. That is the order of the levels: while the
rest of a level waits, the part of the next level found so far waits behind it.
-/

namespace CallContext.Search

variable {α : Type} [DecidableEq α] {neighbours : α → List α} {limit : Nat}

def onward (neighbours : α → List α) (seen : List α) (trail : Trail α) : List (Trail α) :=
  (unseen seen (neighbours trail.last)).map trail.step

/-- What a search finds that has so many trails waiting and so many places seen. -/
inductive Finds (neighbours : α → List α) (limit : Nat) :
    List (Trail α) → List α → List (Trail α) → Prop
  | done (seen : List α) : Finds neighbours limit [] seen []
  | skip {trail : Trail α} {waiting : List (Trail α)} {seen : List α} {found : List (Trail α)} :
      limit ≤ trail.length → Finds neighbours limit waiting seen found →
      Finds neighbours limit (trail :: waiting) seen found
  | visit {trail : Trail α} {waiting : List (Trail α)} {seen : List α} {found : List (Trail α)} :
      trail.length < limit →
      Finds neighbours limit (waiting ++ onward neighbours seen trail)
        (unseen seen (neighbours trail.last) ++ seen) found →
      Finds neighbours limit (trail :: waiting) seen (onward neighbours seen trail ++ found)

theorem unseen_congr {seen others : List α} (same : ∀ place, place ∈ seen ↔ place ∈ others)
    (places : List α) : unseen seen places = unseen others places := by
  simp only [unseen, same]

theorem fresh_congr {seen others : List α} (same : ∀ place, place ∈ seen ↔ place ∈ others)
    (trails : List (Trail α)) : fresh seen trails = fresh others trails := by
  induction trails generalizing seen others with
  | nil => rfl
  | cons trail rest ih =>
      have alike (place : α) : place ∈ trail.last :: seen ↔ place ∈ trail.last :: others := by
        rw [List.mem_cons, List.mem_cons, same]
      rw [fresh, fresh, ih same, ih alike]
      simp only [same]

theorem fresh_append (seen : List α) (before after : List (Trail α)) :
    fresh seen (before ++ after) =
      fresh seen before ++ fresh ((fresh seen before).map (·.last) ++ seen) after := by
  induction before generalizing seen with
  | nil => rfl
  | cons trail rest ih =>
      rw [List.cons_append, fresh, fresh]
      split_ifs
      · exact ih seen
      · rw [ih, List.cons_append]
        congr 2
        refine fresh_congr (fun place => ?_) after
        simp only [List.map_cons, List.cons_append, List.mem_append, List.mem_cons]
        tauto

theorem fresh_map_step (seen places : List α) (trail : Trail α) :
    fresh seen (places.map trail.step) = (unseen seen places).map trail.step := by
  induction places generalizing seen with
  | nil => rfl
  | cons place rest ih =>
      have last : (trail.step place).last = place := rfl
      rw [List.map_cons, fresh, last]
      split_ifs with old
      · rw [ih, unseen_cons_of_mem old]
      · rw [ih, unseen_cons_of_not_mem old, List.map_cons]

theorem nextLevel_cons (seen : List α) (trail : Trail α) (level : List (Trail α)) :
    nextLevel neighbours seen (trail :: level) = onward neighbours seen trail ++
      nextLevel neighbours (unseen seen (neighbours trail.last) ++ seen) level := by
  have first : (onward neighbours seen trail).map (·.last) = unseen seen (neighbours trail.last) := by
    simp [onward, Function.comp_def, Trail.step]
  rw [nextLevel, List.flatMap_cons, fresh_append, fresh_map_step, ← onward, first, nextLevel]

theorem Finds.congr {waiting found : List (Trail α)} {seen others : List α}
    (run : Finds neighbours limit waiting seen found)
    (same : ∀ place, place ∈ seen ↔ place ∈ others) :
    Finds neighbours limit waiting others found := by
  induction run generalizing others with
  | done seen => exact .done others
  | skip far run ih => exact .skip far (ih same)
  | @visit trail waiting seen found near run ih =>
      have alike := unseen_congr same (neighbours trail.last)
      rw [onward, alike, ← onward]
      refine .visit near ?_
      rw [onward, ← alike, ← onward]
      refine ih fun place => ?_
      rw [List.mem_append, List.mem_append, same]

theorem Finds.of_level (level waiting : List (Trail α)) {seen : List α} {found : List (Trail α)}
    (near : ∀ trail ∈ level, trail.length < limit)
    (rest : Finds neighbours limit (waiting ++ nextLevel neighbours seen level)
      ((nextLevel neighbours seen level).map (·.last) ++ seen) found) :
    Finds neighbours limit (level ++ waiting) seen (nextLevel neighbours seen level ++ found) := by
  -- What the first trail of the level puts in waits behind the others of the level.
  induction level generalizing waiting seen with
  | nil => simpa [nextLevel, fresh] using rest
  | cons trail level ih =>
      obtain ⟨first, others⟩ := List.forall_mem_cons.mp near
      rw [nextLevel_cons] at rest ⊢
      rw [← List.append_assoc] at rest
      rw [List.cons_append, List.append_assoc]
      refine .visit first ?_
      rw [List.append_assoc]
      refine ih _ others (rest.congr fun place => ?_)
      simp only [List.map_append, List.mem_append, onward, List.map_map, Function.comp_def, Trail.step,
        List.map_id']
      tauto

theorem Finds.of_far {waiting : List (Trail α)} (seen : List α)
    (far : ∀ trail ∈ waiting, limit ≤ trail.length) : Finds neighbours limit waiting seen [] := by
  induction waiting with
  | nil => exact .done seen
  | cons trail rest ih =>
      obtain ⟨first, others⟩ := List.forall_mem_cons.mp far
      exact .skip first (ih others)

theorem finds_levels (more : Nat) {depth : Nat} (seen : List α) (level : List (Trail α))
    (lengths : ∀ trail ∈ level, trail.length = depth) (total : depth + more = limit) :
    Finds neighbours limit level seen (levels neighbours more seen level) := by
  induction more generalizing depth seen level with
  | zero => exact .of_far seen fun trail member => by rw [lengths trail member]; omega
  | succ more ih =>
      have near : ∀ trail ∈ level, trail.length < limit := fun trail member => by
        rw [lengths trail member]
        omega
      have longer : ∀ trail ∈ nextLevel neighbours seen level, trail.length = depth + 1 := by
        intro trail found
        obtain ⟨before, member, place, -, rfl⟩ := exists_step_of_mem_nextLevel found
        rw [← lengths before member]
        simp [Trail.step, Trail.length]
      have rest := ih ((nextLevel neighbours seen level).map (·.last) ++ seen)
        (nextLevel neighbours seen level) longer (by omega)
      have run := Finds.of_level level [] near rest
      rw [List.append_nil] at run
      rw [levels]
      split_ifs with nothing
      · have none := List.isEmpty_iff.mp nothing
        have stopped : levels neighbours more seen [] = [] := by cases more <;> rfl
        rw [none, List.map_nil, List.nil_append, List.nil_append, stopped] at run
        exact run
      · exact run

theorem finds_trails (neighbours : α → List α) (limit : Nat) (starts : List α) :
    Finds neighbours limit (starts.map fun start => ⟨start, []⟩) starts
      (trails neighbours limit starts) := by
  refine finds_levels limit starts _ (fun trail member => ?_) (Nat.zero_add limit)
  obtain ⟨start, -, rfl⟩ := List.mem_map.mp member
  rfl

end CallContext.Search
