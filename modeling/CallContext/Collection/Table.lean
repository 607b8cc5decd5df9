/-!
Tables: finite maps whose keys keep the order in which they were first inserted. No key occurs twice,
which is part of the type.
-/

namespace CallContext

/-- A finite map in insertion order. -/
structure Table (κ ν : Type) where
  entries : List (κ × ν)
  nodup : (entries.map (·.1)).Nodup

namespace Table

variable {κ ν : Type}

def empty : Table κ ν := ⟨[], by simp⟩

instance : Inhabited (Table κ ν) := ⟨empty⟩

instance : EmptyCollection (Table κ ν) := ⟨empty⟩

def keys (table : Table κ ν) : List κ :=
  table.entries.map (·.1)

def toList (table : Table κ ν) : List (κ × ν) :=
  table.entries

def size (table : Table κ ν) : Nat :=
  table.entries.length

def isEmpty (table : Table κ ν) : Bool :=
  table.entries.isEmpty

theorem isEmpty_iff (table : Table κ ν) : table.isEmpty ↔ table.keys = [] := by
  simp [isEmpty, keys]

variable [DecidableEq κ]

def get? (table : Table κ ν) (key : κ) : Option ν :=
  table.entries.lookup key

def contains (table : Table κ ν) (key : κ) : Bool :=
  table.keys.contains key

def insertNew (table : Table κ ν) (key : κ) (value : ν) : Table κ ν :=
  if h : key ∈ table.keys then table
  else
    { entries := table.entries ++ [(key, value)]
      nodup := by
        rw [List.map_append]
        refine List.nodup_append.mpr ⟨table.nodup, by simp, fun other member last fresh => ?_⟩
        rw [List.mem_singleton.mp fresh]
        rintro rfl
        exact h member }

/-- Changes the value of a key, which keeps its place; a new key comes last, with the value that the
function has for `none`. -/
def alter (table : Table κ ν) (key : κ) (change : Option ν → ν) : Table κ ν :=
  if key ∈ table.keys then
    { entries := table.entries.map fun entry =>
        if entry.1 = key then (entry.1, change (some entry.2)) else entry
      nodup := by
        have same : (table.entries.map fun entry : κ × ν =>
            if entry.1 = key then (entry.1, change (some entry.2)) else entry).map (·.1) =
              table.entries.map (·.1) := by
          rw [List.map_map]
          apply List.map_congr_left
          intro entry _
          by_cases equal : entry.1 = key <;> simp [equal]
        rw [same]
        exact table.nodup }
  else table.insertNew key (change none)

def put (table : Table κ ν) (key : κ) (value : ν) : Table κ ν :=
  table.alter key fun _ => value

def ofList (entries : List (κ × ν)) : Table κ ν :=
  entries.foldl (fun table entry => table.insertNew entry.1 entry.2) empty

theorem mem_keys_iff (table : Table κ ν) (key : κ) :
    key ∈ table.keys ↔ (table.get? key).isSome := by
  have lookup (entries : List (κ × ν)) :
      key ∈ entries.map (·.1) ↔ (entries.lookup key).isSome := by
    induction entries with
    | nil => simp
    | cons entry rest ih =>
        by_cases equal : key = entry.1
        · simp [equal]
        · simp [equal, ih]
  exact lookup table.entries

theorem get?_insertNew (table : Table κ ν) (key other : κ) (value : ν) :
    (table.insertNew key value).get? other =
      (table.get? other).or (if other = key then some value else none) := by
  unfold insertNew
  by_cases known : key ∈ table.keys
  · rw [dif_pos known]
    by_cases equal : other = key
    · subst equal
      obtain ⟨first, found⟩ := Option.isSome_iff_exists.mp ((table.mem_keys_iff _).mp known)
      rw [found, Option.some_or]
    · rw [if_neg equal, Option.or_none]
  · rw [dif_neg known]
    by_cases equal : other = key
    · simp [get?, List.lookup_append, equal]
    · have differ : (other == key) = false := by simpa using equal
      simp [get?, List.lookup_append, List.lookup_cons, differ, equal]

theorem lookup_map_snd (change : κ → ν → ν) (entries : List (κ × ν)) (key : κ) :
    (entries.map fun entry => (entry.1, change entry.1 entry.2)).lookup key =
      (entries.lookup key).map (change key) := by
  induction entries with
  | nil => rfl
  | cons entry rest ih =>
      obtain ⟨first, value⟩ := entry
      by_cases here : key = first
      · simp [here]
      · rw [List.map_cons, List.lookup_cons, List.lookup_cons, beq_false_of_ne here, ih]

theorem get?_alter (table : Table κ ν) (key other : κ) (change : Option ν → ν) :
    (table.alter key change).get? other =
      if other = key then some (change (table.get? key)) else table.get? other := by
  have lookup (entries : List (κ × ν)) :
      (entries.map fun entry =>
        if entry.1 = key then (entry.1, change (some entry.2)) else entry).lookup other =
        (entries.lookup other).map fun value =>
          if other = key then change (some value) else value := by
    rw [← lookup_map_snd fun other value => if other = key then change (some value) else value]
    congr 2
    funext entry
    split <;> rfl
  by_cases known : key ∈ table.keys
  · obtain ⟨value, present⟩ := Option.isSome_iff_exists.mp ((table.mem_keys_iff _).mp known)
    unfold alter
    rw [if_pos known, present]
    unfold get? at present ⊢
    rw [lookup]
    by_cases equal : other = key <;> simp [equal, present]
  · have absent : table.get? key = none :=
      Option.not_isSome_iff_eq_none.mp fun present => known ((table.mem_keys_iff _).mpr present)
    unfold alter
    rw [if_neg known, get?_insertNew, absent]
    by_cases equal : other = key <;> simp [equal, absent]

end Table

end CallContext
