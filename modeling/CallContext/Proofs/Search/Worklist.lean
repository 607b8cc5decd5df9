import CallContext.Proofs.Collection.Distinct
import CallContext.Proofs.Search.Limit

/-!
Search with a queue. The first place of the queue is taken out; it is skipped if it was taken out before,
and else its neighbours are put in at the end. A place may wait several times, and there may be ways
around, but the search ends if there are finitely many places, and it visits them level by level.
-/

namespace CallContext.Search

open Collection

variable {α : Type} {neighbours : α → List α}

inductive Visits (neighbours : α → List α) : List α → List α → List α → Prop
  | done (seen : List α) : Visits neighbours [] seen []
  | skip {place : α} {queue seen visited : List α} : place ∈ seen →
      Visits neighbours queue seen visited → Visits neighbours (place :: queue) seen visited
  | visit {place : α} {queue seen visited : List α} : place ∉ seen →
      Visits neighbours (queue ++ neighbours place) (place :: seen) visited →
      Visits neighbours (place :: queue) seen (place :: visited)

theorem Visits.unique {queue seen visited other : List α} (run : Visits neighbours queue seen visited)
    (another : Visits neighbours queue seen other) : other = visited := by
  induction run generalizing other with
  | done seen =>
      cases another
      rfl
  | skip old run ih =>
      cases another with
      | skip _ rest => exact ih rest
      | visit new _ => exact absurd old new
  | visit new run ih =>
      cases another with
      | skip old _ => exact absurd old new
      | visit _ rest => rw [ih rest]

theorem Visits.congr {queue seen others visited : List α} (run : Visits neighbours queue seen visited)
    (same : ∀ place, place ∈ seen ↔ place ∈ others) : Visits neighbours queue others visited := by
  induction run generalizing others with
  | done seen => exact .done others
  | skip old run ih => exact .skip ((same _).mp old) (ih same)
  | visit new run ih =>
      refine .visit (mt (same _).mpr new) (ih fun place => ?_)
      rw [List.mem_cons, List.mem_cons, same]

variable [DecidableEq α]

theorem unseen_cons_of_mem {seen : List α} {place : α} (old : place ∈ seen) (queue : List α) :
    unseen seen (place :: queue) = unseen seen queue := by
  simp [unseen, old]

theorem unseen_cons_of_not_mem {seen : List α} {place : α} (new : place ∉ seen) (queue : List α) :
    unseen seen (place :: queue) = place :: unseen (place :: seen) queue := by
  have later : (queue.filter (· ∉ seen)).filter (fun other => !other == place) =
      queue.filter (· ∉ place :: seen) := by
    rw [List.filter_filter]
    refine List.filter_congr fun other _ => ?_
    by_cases same : other = place <;> simp [same]
  rw [unseen, List.filter_cons_of_pos (by simpa using new), List.eraseDups_cons, later]
  rfl

theorem Visits.of_level (level queue : List α) {seen visited : List α}
    (rest : Visits neighbours (queue ++ (unseen seen level).flatMap neighbours)
      (unseen seen level ++ seen) visited) :
    Visits neighbours (level ++ queue) seen (unseen seen level ++ visited) := by
  induction level generalizing queue seen with
  | nil => simpa [unseen] using rest
  | cons place level ih =>
      by_cases old : place ∈ seen
      · rw [unseen_cons_of_mem old] at rest ⊢
        exact .skip old (ih _ rest)
      · rw [unseen_cons_of_not_mem old] at rest ⊢
        rw [List.flatMap_cons, ← List.append_assoc] at rest
        have moved : ∀ other, other ∈ place :: unseen (place :: seen) level ++ seen ↔
            other ∈ unseen (place :: seen) level ++ place :: seen := by
          intro other
          simp only [List.cons_append, List.mem_cons, List.mem_append]
          tauto
        have run := ih _ (rest.congr moved)
        rw [← List.append_assoc] at run
        exact .visit old run

theorem map_last_fresh (seen : List α) (trails : List (Trail α)) :
    (fresh seen trails).map (·.last) = unseen seen (trails.map (·.last)) := by
  induction trails generalizing seen with
  | nil => rfl
  | cons trail rest ih =>
      rw [fresh, List.map_cons]
      split_ifs with old
      · rw [ih, unseen_cons_of_mem old]
      · rw [List.map_cons, ih, unseen_cons_of_not_mem old]

theorem map_last_nextLevel (seen : List α) (level : List (Trail α)) :
    (nextLevel neighbours seen level).map (·.last) =
      unseen seen ((level.map (·.last)).flatMap neighbours) := by
  have steps : (level.flatMap fun trail => (neighbours trail.last).map trail.step).map (·.last) =
      (level.map (·.last)).flatMap neighbours := by
    simp [List.map_flatMap, List.flatMap_map, Function.comp_def, Trail.step]
  rw [nextLevel, map_last_fresh, steps]

variable {places : List α}

theorem visits_levels (covered : ∀ place, ∀ next ∈ neighbours place, next ∈ places) (limit : Nat)
    (seen : List α) (level : List (Trail α)) (enough : (places.filter (· ∉ seen)).length ≤ limit) :
    Visits neighbours ((level.map (·.last)).flatMap neighbours) seen
      ((levels neighbours limit seen level).map (·.last)) := by
  have ended {seen : List α} {level : List (Trail α)} (nothing : nextLevel neighbours seen level = []) :
      Visits neighbours ((level.map (·.last)).flatMap neighbours) seen [] := by
    have old : unseen seen ((level.map (·.last)).flatMap neighbours) = [] := by
      rw [← map_last_nextLevel, nothing, List.map_nil]
    have run : Visits neighbours ((level.map (·.last)).flatMap neighbours ++ []) seen
        (unseen seen ((level.map (·.last)).flatMap neighbours) ++ []) := by
      refine .of_level _ [] ?_
      rw [old]
      exact .done seen
    rwa [List.append_nil, old] at run
  induction limit generalizing seen level with
  | zero => exact ended (nextLevel_eq_nil covered level enough)
  | succ limit ih =>
      rw [levels]
      split_ifs with nothing
      · exact ended (List.isEmpty_iff.mp nothing)
      · have fewer := length_unseen_lt covered (List.isEmpty_iff.not.mp nothing)
        have rest := ih ((nextLevel neighbours seen level).map (·.last) ++ seen)
          (nextLevel neighbours seen level) (by omega)
        rw [List.map_append, map_last_nextLevel] at *
        have run := Visits.of_level _ [] rest
        rwa [List.append_nil] at run

theorem visits_iff (covered : ∀ place, ∀ next ∈ neighbours place, next ∈ places) {limit : Nat}
    (enough : places.length ≤ limit) (start : α) (visited : List α) :
    Visits neighbours [start] [] visited ↔ visited = start :: reached neighbours limit [start] := by
  have run : Visits neighbours [start] [] (start :: reached neighbours limit [start]) := by
    refine .visit List.not_mem_nil ?_
    have unseen : (places.filter (· ∉ [start])).length ≤ limit :=
      (List.length_filter_le _ _).trans enough
    simpa [reached, trails] using visits_levels covered limit [start] [⟨start, []⟩] unseen
  exact ⟨run.unique, fun same => same ▸ run⟩

end CallContext.Search
