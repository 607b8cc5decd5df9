import CallContext.Context.Assemble
import CallContext.Proofs.Collection.Distinct

namespace CallContext.Context

open Collection

def addOne (limit : Nat) (added : List RelatedFile) (file : RelatedFile) : List RelatedFile :=
  if limit ≤ added.length then added
  else if added.any (·.path == file.path) then added
  else added ++ [file]

def distinctPaths (files : List RelatedFile) : List RelatedFile :=
  (files.map (·.path)).eraseDups.filterMap fun path => files.find? (·.path = path)

theorem foldl_addOne_of_full {limit : Nat} {added : List RelatedFile} (full : limit ≤ added.length)
    (files : List RelatedFile) : files.foldl (addOne limit) added = added := by
  induction files with
  | nil => rfl
  | cons file rest ih => rw [List.foldl_cons, addOne, if_pos full, ih]

theorem addRelated_eq_foldl (limit : Nat) (added files : List RelatedFile) :
    addRelated limit added files = files.foldl (addOne limit) added := by
  induction files generalizing added with
  | nil => rfl
  | cons file rest ih =>
      rw [addRelated, List.foldl_cons]
      split_ifs with full known
      · exact (foldl_addOne_of_full full (file :: rest)).symm
      · rw [ih, addOne, if_neg full, if_pos known]
      · rw [ih, addOne, if_neg full, if_neg known]

theorem find?_path_isSome (files : List RelatedFile) (path : String) :
    (files.find? (·.path = path)).isSome ↔ path ∈ files.map (·.path) := by
  simp [List.find?_isSome]

theorem distinctPaths_concat (files : List RelatedFile) (last : RelatedFile) :
    distinctPaths (files ++ [last]) =
      if last.path ∈ files.map (·.path) then distinctPaths files
      else distinctPaths files ++ [last] := by
  have kept : ∀ path ∈ (files.map (·.path)).eraseDups,
      (files ++ [last]).find? (·.path = path) = files.find? (·.path = path) := by
    intro path member
    rw [List.mem_eraseDups, ← find?_path_isSome] at member
    obtain ⟨first, found⟩ := Option.isSome_iff_exists.mp member
    rw [List.find?_append, found, Option.some_or]
  have before : (files.map (·.path)).eraseDups.filterMap
      (fun path => (files ++ [last]).find? (·.path = path)) = distinctPaths files :=
    List.filterMap_congr kept
  rw [distinctPaths, List.map_append, List.map_singleton, eraseDups_concat]
  split_ifs with known
  · exact before
  · have missing : files.find? (·.path = last.path) = none := by
      rw [← Option.not_isSome_iff_eq_none, find?_path_isSome]
      exact known
    rw [List.filterMap_append, before]
    simp [List.find?_append, missing]

theorem map_path_distinctPaths (files : List RelatedFile) :
    (distinctPaths files).map (·.path) = (files.map (·.path)).eraseDups := by
  induction files using List.reverseRecOn with
  | nil => rfl
  | append_singleton files last ih =>
      rw [distinctPaths_concat, List.map_append, List.map_singleton, eraseDups_concat]
      split_ifs
      · exact ih
      · rw [List.map_append, ih, List.map_singleton]

theorem find?_of_mem_distinctPaths {files : List RelatedFile} {file : RelatedFile}
    (member : file ∈ distinctPaths files) : files.find? (·.path = file.path) = some file := by
  obtain ⟨path, -, found⟩ := List.mem_filterMap.mp member
  have named : file.path = path := by simpa using List.find?_some found
  rw [named]
  exact found

theorem any_path_distinctPaths (files : List RelatedFile) (path : String) :
    (distinctPaths files).any (·.path == path) ↔ path ∈ files.map (·.path) := by
  rw [← List.mem_eraseDups, ← map_path_distinctPaths]
  simp

theorem foldl_addOne (limit : Nat) (files : List RelatedFile) :
    files.foldl (addOne limit) [] = (distinctPaths files).take limit := by
  induction files using List.reverseRecOn with
  | nil => simp [distinctPaths]
  | append_singleton files last ih =>
      rw [List.foldl_concat, ih, addOne, distinctPaths_concat]
      by_cases full : limit ≤ (distinctPaths files).length
      · rw [if_pos (by rw [List.length_take]; omega)]
        split_ifs
        · rfl
        · rw [List.take_append_of_le_length full]
      · -- Nothing has been cut off yet, so what has been added is what is known.
        have whole : (distinctPaths files).take limit = distinctPaths files :=
          List.take_of_length_le (by omega)
        rw [whole, if_neg full]
        simp only [any_path_distinctPaths]
        split_ifs
        · exact whole.symm
        · rw [List.take_of_length_le]
          simp only [List.length_append, List.length_singleton]
          omega

end CallContext.Context
