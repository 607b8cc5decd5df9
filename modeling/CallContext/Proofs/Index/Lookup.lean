import CallContext.Proofs.Index.Order

namespace CallContext.SourceIndex

open Java Collection

theorem filter_files_ofFiles (files : List SourceFile) (path : String) :
    (ofFiles files).files.filter (·.path == path) = files.filter (·.path == path) := by
  rw [files_ofFiles, filter_mergeSort_byKey]
  refine List.mergeSort_of_pairwise (List.pairwise_of_forall_mem_list fun a first b second => ?_)
  have left : a.path = path := by simpa using (List.mem_filter.mp first).2
  have right : b.path = path := by simpa using (List.mem_filter.mp second).2
  rw [byKey, left, right]
  exact decide_eq_true (String.le_refl path)

theorem file?_ofFiles (files : List SourceFile) (path : String) :
    (ofFiles files).file? path = files.find? (·.path == path) := by
  rw [file?_eq_find?, ← List.head?_filter, filter_files_ofFiles, List.head?_filter]

variable (index : SourceIndex)

theorem isSome_declaration?_iff (fqn : String) :
    (index.declaration? fqn).isSome ↔ ∃ place ∈ index.declarations, place.type.fqn = fqn := by
  simp [declaration?_eq_find?]

theorem declaration?_of_type? {fqn : String} {type : TypeDeclaration}
    (found : index.type? fqn = some type) :
    ∃ file, index.fileOfType? fqn = some file ∧ index.declaration? fqn = some ⟨file, type⟩ := by
  rw [type?_eq_map] at found
  obtain ⟨⟨file, type⟩, declared, rfl⟩ := Option.map_eq_some_iff.mp found
  exact ⟨file, by rw [fileOfType?_eq_map, declared, Option.map_some], declared⟩

theorem exists_split_of_declaration? {fqn : String} {place : Declaration}
    (found : index.declaration? fqn = some place) :
    place.type.fqn = fqn ∧ ∃ before after, index.declarations = before ++ place :: after ∧
      ∀ other ∈ before, other.type.fqn ≠ fqn := by
  rw [declaration?_eq_find?] at found
  obtain ⟨named, before, after, split, earlier⟩ := List.find?_eq_some_iff_append.mp found
  exact ⟨by simpa using named, before, after, split, fun other member => by simpa using earlier other member⟩

theorem mem_typesNamed {name fqn : String} :
    fqn ∈ index.typesNamed name ↔ ∃ type, index.type? fqn = some type ∧ type.name = name := by
  rw [typesNamed_eq_filter, List.mem_filter, typeNames, List.mem_eraseDups, List.mem_map, Option.any_eq_true]
  simp only [beq_iff_eq]
  apply and_iff_right_of_imp
  rintro ⟨type, found, -⟩
  obtain ⟨file, -, declared⟩ := index.declaration?_of_type? found
  exact (index.isSome_declaration?_iff fqn).mp (Option.isSome_of_eq_some declared)

/-- What is found in the index of some files, which holds them by increasing path and otherwise in the given
order: under a fully qualified name the first type that has it, and its file; under a simple name, in order,
the fully qualified names under which types with it are found; under a path the first file given with it. -/
theorem ofFiles_lookup (files : List SourceFile) :
    let index := ofFiles files
    (index.files.Perm files ∧ (index.files.Pairwise fun a b => a.path ≤ b.path) ∧
      ∀ path, index.files.filter (·.path == path) = files.filter (·.path == path)) ∧
    (∀ fqn type, index.type? fqn = some type → type.fqn = fqn ∧ ∃ file before after,
      index.fileOfType? fqn = some file ∧ type ∈ file.types ∧
        index.declarations = before ++ ⟨file, type⟩ :: after ∧
          ∀ place ∈ before, place.type.fqn ≠ fqn) ∧
    (∀ fqn, ((index.type? fqn).isSome ↔ ∃ place ∈ index.declarations, place.type.fqn = fqn) ∧
      ((index.fileOfType? fqn).isSome ↔ ∃ place ∈ index.declarations, place.type.fqn = fqn) ∧
      (index.hasType fqn ↔ ∃ place ∈ index.declarations, place.type.fqn = fqn)) ∧
    (∀ name, (index.typesNamed name).Nodup ∧
      (∀ fqn, fqn ∈ index.typesNamed name ↔ ∃ type, index.type? fqn = some type ∧ type.name = name) ∧
      (index.typesNamed name).Sublist (index.declarations.map (·.type.fqn)).eraseDups) ∧
    ∀ path, index.file? path = files.find? (·.path == path) := by
  intro index
  refine ⟨⟨perm_files_ofFiles files, pairwise_files_ofFiles files, filter_files_ofFiles files⟩, ?_, ?_, ?_,
    file?_ofFiles files⟩
  · intro fqn type found
    obtain ⟨file, inFile, declared⟩ := index.declaration?_of_type? found
    obtain ⟨named, before, after, split, earlier⟩ := index.exists_split_of_declaration? declared
    have indexed := (mem_declarations index _).mp (declaration?_mem declared)
    exact ⟨named, file, before, after, inFile, indexed.2, split, earlier⟩
  · intro fqn
    rw [type?_eq_map, fileOfType?_eq_map, hasType_eq_isSome, Option.isSome_map, Option.isSome_map]
    have declared := index.isSome_declaration?_iff fqn
    exact ⟨declared, declared, declared⟩
  · intro name
    refine ⟨index.nodup_typesNamed name, fun fqn => index.mem_typesNamed, ?_⟩
    rw [typesNamed_eq_filter]
    exact List.filter_sublist

end CallContext.SourceIndex
