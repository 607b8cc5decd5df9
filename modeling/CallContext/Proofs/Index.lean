import CallContext.CallGraph.Build
import CallContext.Proofs.Index.Tables

namespace CallContext.SourceIndex

open Java

@[simp]
theorem files_mk (files : List SourceFile) : (mk files).files = files :=
  rfl

theorem mem_files_ofFiles (files : List SourceFile) (file : SourceFile) :
    file ∈ (ofFiles files).files ↔ file ∈ files :=
  List.mem_mergeSort

theorem mem_declarations (index : SourceIndex) (place : Declaration) :
    place ∈ index.declarations ↔ place.file ∈ index.files ∧ place.type ∈ place.file.types := by
  obtain ⟨file, type⟩ := place
  simp only [declarations, List.mem_flatMap, List.mem_map, Declaration.mk.injEq]
  constructor
  · rintro ⟨_, indexed, _, declared, rfl, rfl⟩
    exact ⟨indexed, declared⟩
  · rintro ⟨indexed, declared⟩
    exact ⟨file, indexed, type, declared, rfl, rfl⟩

theorem mem_scopes (index : SourceIndex) (scope : Scope) :
    scope ∈ index.scopes ↔ ⟨scope.file, scope.type⟩ ∈ index.declarations ∧
      scope.method ∈ scope.type.methods := by
  obtain ⟨file, type, method⟩ := scope
  simp only [scopes, List.mem_flatMap, List.mem_map, Scope.mk.injEq]
  constructor
  · rintro ⟨_, declared, _, member, rfl, rfl, rfl⟩
    exact ⟨declared, member⟩
  · rintro ⟨declared, member⟩
    exact ⟨⟨file, type⟩, declared, method, member, rfl, rfl, rfl⟩

theorem declaration?_mem {index : SourceIndex} {fqn : String} {place : Declaration}
    (found : index.declaration? fqn = some place) : place ∈ index.declarations := by
  rw [declaration?_eq_find?] at found
  exact List.mem_of_find?_eq_some found

end CallContext.SourceIndex
