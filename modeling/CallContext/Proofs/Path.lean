import CallContext.Path
import CallContext.Proofs.Text.Blank

/-!
The normal form of a path. It is never longer than the path as it is written, so what is in normal form has
no white space around it. Normalizing twice is the same as normalizing once, with one exception: white space
behind marks of the current directory is not taken off until the second time.
-/

namespace CallContext.Path

theorem dropHere_of_ne {path : List Char} (other : ∀ rest, path = '.' :: '/' :: rest → False) :
    dropHere path = path := by
  rw [dropHere]
  exact other

theorem dropHere_suffix (path : List Char) : dropHere path <:+ path := by
  induction path using dropHere.induct with
  | case1 rest ih =>
      rw [dropHere]
      exact ih.trans ((List.suffix_cons _ _).trans (List.suffix_cons _ _))
  | case2 path other => exact ⟨[], dropHere_of_ne other⟩

theorem length_normalize_le_trim (written : String) :
    (normalize written).toList.length ≤ (Text.trim written.toList).length := by
  have slashes : (slashed (Text.trim written.toList)).length = (Text.trim written.toList).length :=
    List.length_map _
  rw [normalize, String.toList_ofList, ← slashes]
  exact (dropHere_suffix _).length_le

theorem length_normalize_le (written : String) :
    (normalize written).toList.length ≤ written.toList.length :=
  (length_normalize_le_trim written).trans (Text.isInfix_trim _).length_le

theorem isTrimmed_of_normalize_eq {path : String} (normal : normalize path = path) :
    Text.IsTrimmed path.toList := by
  have whole := length_normalize_le_trim path
  rw [normal] at whole
  have inside := Text.isInfix_trim path.toList
  exact Text.trim_eq_self_iff.mp (inside.eq_of_length (Nat.le_antisymm inside.length_le whole))

open Text

theorem not_here_dropHere (path : List Char) : ¬ "./".toList <+: dropHere path := by
  induction path using dropHere.induct with
  | case1 rest ih =>
      rw [dropHere]
      exact ih
  | case2 path other =>
      rw [dropHere_of_ne other]
      rintro ⟨rest, rfl⟩
      exact other rest rfl

theorem dropHere_eq_self_iff {path : List Char} : dropHere path = path ↔ ¬ "./".toList <+: path := by
  constructor
  · intro same
    rw [← same]
    exact not_here_dropHere path
  · intro apart
    refine dropHere_of_ne fun rest here => ?_
    rw [here] at apart
    exact apart ⟨rest, rfl⟩

theorem backslash_not_mem_slashed (text : List Char) : '\\' ∉ slashed text := by
  intro member
  obtain ⟨c, -, slash⟩ := List.mem_map.mp member
  by_cases same : c = '\\' <;> simp [same] at slash

theorem slashed_eq_self_iff {text : List Char} : slashed text = text ↔ '\\' ∉ text := by
  constructor
  · intro same
    rw [← same]
    exact backslash_not_mem_slashed text
  · intro absent
    have kept : ∀ c ∈ text, (if c = '\\' then '/' else c) = id c := by
      intro c member
      have apart : c ≠ '\\' := fun same => absent (same ▸ member)
      rw [if_neg apart, id]
    rw [slashed, List.map_congr_left kept, List.map_id]

theorem isBlank_slash (c : Char) : isBlank (if c = '\\' then '/' else c) = isBlank c := by
  split_ifs with backslash
  · subst backslash
    decide
  · rfl

theorem getLast?_any_of_suffix {text ending : List Char} (suffix : ending <:+ text)
    (solid : text.getLast?.any isBlank = false) : ending.getLast?.any isBlank = false := by
  obtain ⟨start, rfl⟩ := suffix
  rw [List.getLast?_append] at solid
  cases last : ending.getLast? with
  | none => rfl
  | some c => simpa [last] using solid

theorem toList_normalize (written : String) :
    (normalize written).toList = dropHere (slashed (trim written.toList)) :=
  String.toList_ofList

theorem getLast?_any_normalize (written : String) :
    (normalize written).toList.getLast?.any isBlank = false := by
  have trimmed : (trim written.toList).getLast?.any isBlank = false :=
    trimEnd_eq_self_iff.mp (List.rdropWhile_idempotent isBlank _)
  have slashes : (slashed (trim written.toList)).getLast?.any isBlank = false := by
    rw [slashed, List.getLast?_map, Option.any_map]
    simpa only [Function.comp_def, isBlank_slash] using trimmed
  rw [toList_normalize]
  exact getLast?_any_of_suffix (dropHere_suffix _) slashes

theorem backslash_not_mem_normalize (written : String) : '\\' ∉ (normalize written).toList := by
  rw [toList_normalize]
  exact fun member => backslash_not_mem_slashed _ ((dropHere_suffix _).subset member)

theorem trim_of_getLast? {text : List Char} (solid : text.getLast?.any isBlank = false) :
    trim text = text.dropWhile isBlank := by
  rw [trim, trimEnd_eq_self_iff]
  exact getLast?_any_of_suffix (List.dropWhile_suffix isBlank) solid

theorem normalize_normalize (written : String) : normalize (normalize written) =
    String.ofList (dropHere ((normalize written).toList.dropWhile isBlank)) := by
  have slashes : '\\' ∉ (normalize written).toList.dropWhile isBlank := fun member =>
    backslash_not_mem_normalize written ((List.dropWhile_suffix isBlank).subset member)
  rw [normalize, trim_of_getLast? (getLast?_any_normalize written), slashed_eq_self_iff.mpr slashes]

/-- Normalizing a second time changes exactly those paths that begin with white space after the first
time, which is white space behind marks of the current directory. -/
theorem normalize_normalize_eq_iff (written : String) :
    normalize (normalize written) = String.ofList (dropHere ((normalize written).toList.dropWhile isBlank)) ∧
    (normalize (normalize written) = normalize written ↔
      (normalize written).toList.head?.any isBlank = false) := by
  refine ⟨normalize_normalize written, fun same => (isTrimmed_of_normalize_eq same).1, fun solid => ?_⟩
  have direct : dropHere (normalize written).toList = (normalize written).toList := by
    rw [dropHere_eq_self_iff, toList_normalize]
    exact not_here_dropHere _
  rw [normalize_normalize, dropWhile_isBlank_eq_self_iff.mpr solid, direct, String.ofList_toList]

theorem normalize_normalize_ne :
    ¬ ∀ written : String, normalize (normalize written) = normalize written := by
  intro same
  have once : normalize "./ a" = " a" := by decide +kernel
  have twice : normalize " a" = "a" := by decide +kernel
  have again := same "./ a"
  rw [once, twice] at again
  exact absurd again (by decide)

end CallContext.Path
