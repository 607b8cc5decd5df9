import CallContext.Collection.Table
import CallContext.Proofs.Collection.Distinct

namespace CallContext.Table

open Collection

variable {κ ν : Type} [DecidableEq κ]

theorem lookup_filter_fst {p : κ → Bool} {key : κ} (kept : p key) (entries : List (κ × ν)) :
    (entries.filter fun entry => p entry.1).lookup key = entries.lookup key := by
  induction entries with
  | nil => rfl
  | cons entry rest ih =>
      by_cases here : key = entry.1
      · rw [List.filter_cons_of_pos (here ▸ kept), List.lookup_cons, List.lookup_cons, ih]
      · rw [List.lookup_cons, beq_false_of_ne here, List.filter_cons, ← ih]
        split_ifs
        · rw [List.lookup_cons, beq_false_of_ne here]
        · rfl

theorem lookup_eq_some_iff {entries : List (κ × ν)} (apart : (entries.map (·.1)).Nodup) {key : κ}
    {value : ν} : entries.lookup key = some value ↔ (key, value) ∈ entries := by
  induction entries with
  | nil => simp
  | cons entry rest ih =>
      obtain ⟨first, found⟩ := entry
      obtain ⟨fresh, distinct⟩ := List.nodup_cons.mp apart
      rw [List.lookup_cons, List.mem_cons, Prod.mk.injEq]
      by_cases here : key = first
      · subst here
        have absent : (key, value) ∉ rest := fun member => fresh (List.mem_map.mpr ⟨_, member, rfl⟩)
        simp [absent, eq_comm]
      · rw [beq_false_of_ne here, ih distinct]
        simp [here]

theorem get?_eq_some_iff {table : Table κ ν} {key : κ} {value : ν} :
    table.get? key = some value ↔ (key, value) ∈ table.toList :=
  lookup_eq_some_iff table.nodup

theorem keys_insertNew (table : Table κ ν) (key : κ) (value : ν) :
    (table.insertNew key value).keys =
      if key ∈ table.keys then table.keys else table.keys ++ [key] := by
  unfold insertNew
  split_ifs
  · rfl
  · simp [keys]

theorem keys_alter (table : Table κ ν) (key : κ) (change : Option ν → ν) :
    (table.alter key change).keys = if key ∈ table.keys then table.keys else table.keys ++ [key] := by
  unfold alter
  split_ifs with known
  · rw [keys, List.map_map, keys]
    apply List.map_congr_left
    intro entry _
    by_cases here : entry.1 = key <;> simp [here]
  · rw [keys_insertNew, if_neg known]

theorem toList_eq_filterMap_keys (table : Table κ ν) :
    table.toList = table.keys.filterMap fun key => (table.get? key).map fun value => (key, value) := by
  have listed (entries : List (κ × ν)) (nodup : (entries.map (·.1)).Nodup) :
      entries = (entries.map (·.1)).filterMap fun key =>
        (entries.lookup key).map fun value => (key, value) := by
    induction entries with
    | nil => rfl
    | cons entry rest ih =>
        obtain ⟨fresh, distinct⟩ := List.nodup_cons.mp nodup
        rw [List.map_cons, List.filterMap_cons, List.lookup_cons, beq_self_eq_true]
        simp only [Option.map_some]
        congr 1
        conv_lhs => rw [ih distinct]
        apply List.filterMap_congr
        intro key member
        have apart : (key == entry.1) = false := by
          rw [beq_eq_false_iff_ne]
          intro same
          rw [same] at member
          exact fresh member
        rw [List.lookup_cons, apart]
  exact listed table.entries table.nodup

theorem ext_get? {table other : Table κ ν} (keys : table.keys = other.keys)
    (values : ∀ key ∈ table.keys, table.get? key = other.get? key) : table = other := by
  have entries : table.toList = other.toList := by
    rw [toList_eq_filterMap_keys, toList_eq_filterMap_keys, ← keys]
    apply List.filterMap_congr
    intro key member
    rw [values key member]
  cases table
  cases other
  simpa [toList] using entries

theorem get?_put (table : Table κ ν) (key other : κ) (value : ν) :
    (table.put key value).get? other = if other = key then some value else table.get? other :=
  get?_alter table key other _

theorem ofList_concat (entries : List (κ × ν)) (last : κ × ν) :
    ofList (entries ++ [last]) = (ofList entries).insertNew last.1 last.2 := by
  simp [ofList]

theorem keys_ofList (entries : List (κ × ν)) :
    (ofList entries).keys = (entries.map (·.1)).eraseDups := by
  induction entries using List.reverseRecOn with
  | nil => rfl
  | append_singleton entries last ih =>
      rw [ofList_concat, keys_insertNew, List.map_append, List.map_singleton, eraseDups_concat, ih]
      simp only [List.mem_eraseDups]

theorem mem_of_mem_ofList {entries : List (κ × ν)} {entry : κ × ν}
    (listed : entry ∈ (ofList entries).toList) : entry ∈ entries := by
  induction entries using List.reverseRecOn with
  | nil => cases listed
  | append_singleton entries last ih =>
      rw [ofList_concat, insertNew] at listed
      split_ifs at listed
      · exact List.mem_append_left _ (ih listed)
      · rcases List.mem_append.mp listed with before | fresh
        · exact List.mem_append_left _ (ih before)
        · exact List.mem_append_right _ fresh

theorem get?_ofList (entries : List (κ × ν)) (key : κ) :
    (ofList entries).get? key = (entries.find? (·.1 = key)).map (·.2) := by
  induction entries using List.reverseRecOn with
  | nil => rfl
  | append_singleton entries last ih =>
      rw [ofList_concat, get?_insertNew, List.find?_append, ih]
      by_cases equal : last.1 = key
      · cases entries.find? (·.1 = key) <;> simp [equal]
      · have apart : key ≠ last.1 := fun same => equal same.symm
        cases entries.find? (·.1 = key) <;> simp [equal, apart]

end CallContext.Table
