import Mathlib.Data.Option.Basic
import CallContext.Proofs.Index
import CallContext.Proofs.Name

namespace CallContext.SourceIndex

open Java

variable {index : SourceIndex}

theorem mem_typeNames (index : SourceIndex) (fqn : String) :
    fqn ∈ index.typeNames ↔ ∃ place ∈ index.declarations, place.type.fqn = fqn := by
  rw [typeNames, List.mem_eraseDups, List.mem_map]

theorem fqn_of_declaration? {fqn : String} {place : Declaration}
    (found : index.declaration? fqn = some place) : place.type.fqn = fqn := by
  rw [declaration?_eq_find?] at found
  simpa using List.find?_some found

theorem type?_eq_some {fqn : String} {type : TypeDeclaration} (found : index.type? fqn = some type) :
    type.fqn = fqn ∧ ∃ file ∈ index.files, type ∈ file.types := by
  rw [type?_eq_map] at found
  obtain ⟨place, declared, rfl⟩ := Option.map_eq_some_iff.mp found
  have indexed := (mem_declarations index place).mp (declaration?_mem declared)
  exact ⟨fqn_of_declaration? declared, place.file, indexed⟩

theorem known?_eq_some {fqn found : String} (known : index.known? fqn = some found) :
    found = fqn ∧ fqn ∈ index.typeNames := by
  simp only [known?, type?_eq_map, Option.map_map, Option.map_eq_some_iff, Function.comp_apply] at known
  obtain ⟨place, declared, rfl⟩ := known
  have named := fqn_of_declaration? declared
  exact ⟨named, (index.mem_typeNames fqn).mpr ⟨place, declaration?_mem declared, named⟩⟩

theorem known?_mem {fqn found : String} (known : index.known? fqn = some found) :
    found ∈ index.typeNames := by
  obtain ⟨rfl, member⟩ := known?_eq_some known
  exact member

theorem enclosingWithin_subset (limit : Nat) (fqn owner : String)
    (around : owner ∈ index.enclosingWithin limit fqn) : owner ∈ index.typeNames := by
  induction limit generalizing fqn with
  | zero => simp [enclosingWithin] at around
  | succ limit ih =>
      rw [enclosingWithin] at around
      cases found : index.type? fqn with
      | none => simp [found] at around
      | some type =>
          simp only [found, List.mem_cons] at around
          rcases around with rfl | further
          · have known : index.known? fqn = some type.fqn := by simp [known?, found]
            exact known?_mem known
          · cases outer : type.outer with
            | none => simp [outer] at further
            | some name => exact ih name (by simpa [outer] using further)

theorem enclosing_subset (type : TypeDeclaration) (owner : String)
    (around : owner ∈ index.enclosing type) : owner ∈ index.typeNames :=
  enclosingWithin_subset _ _ owner around

theorem amongEnclosing_mem {owners : List String} {name found : String}
    (known : ∀ owner ∈ owners, owner ∈ index.typeNames)
    (meant : index.amongEnclosing owners name = some found) : found ∈ index.typeNames := by
  obtain ⟨owner, member, chosen⟩ := List.exists_of_findSome?_eq_some meant
  split_ifs at chosen
  · obtain rfl := Option.some.inj chosen
    exact known owner member
  · exact known?_mem chosen

theorem onDemand_mem {file : SourceFile} {name found : String}
    (meant : index.onDemand file name = some found) : found ∈ index.typeNames := by
  rw [onDemand] at meant
  split at meant
  · rename_i only single
    obtain rfl := Option.some.inj meant
    have member : only ∈ (index.typesNamed name).filter (importsPackageOf file name) := by
      rw [single]
      exact List.mem_singleton_self only
    have named := (List.mem_filter.mp member).1
    rw [typesNamed_eq_filter] at named
    exact (List.mem_filter.mp named).1
  · cases meant

def ownersAround (index : SourceIndex) (context : Option TypeDeclaration) : List String :=
  context.elim [] index.enclosing

theorem ownersAround_subset (context : Option TypeDeclaration) (owner : String)
    (around : owner ∈ index.ownersAround context) : owner ∈ index.typeNames := by
  cases context with
  | none => simp [ownersAround] at around
  | some type => exact enclosing_subset type owner around

def resolveOutside (index : SourceIndex) (file : SourceFile) (name : String) : Option String :=
  match singleImport? file name with
  | some declaration => index.known? declaration.path
  | none => (index.known? (Name.join '.' [file.package, name])).or (index.onDemand file name)

theorem resolveSimple_eq_or (file : SourceFile) (context : Option TypeDeclaration) (name : String) :
    index.resolveSimple file context name =
      (index.amongEnclosing (index.ownersAround context) name).or (index.resolveOutside file name) := by
  unfold resolveSimple resolveOutside
  cases context with
  | none =>
      cases singleImport? file name with
      | some declaration => rfl
      | none => cases index.known? (Name.join '.' [file.package, name]) <;> rfl
  | some type =>
      simp only [ownersAround, Option.elim_some]
      cases index.amongEnclosing (index.enclosing type) name with
      | some found => rfl
      | none =>
          cases singleImport? file name with
          | some declaration => rfl
          | none => cases index.known? (Name.join '.' [file.package, name]) <;> rfl

theorem resolveSimple_mem {file : SourceFile} {context : Option TypeDeclaration} {name found : String}
    (meant : index.resolveSimple file context name = some found) : found ∈ index.typeNames := by
  rw [resolveSimple_eq_or] at meant
  rcases Option.or_eq_some_iff.mp meant with inner | ⟨-, outside⟩
  · exact amongEnclosing_mem (ownersAround_subset context) inner
  · rw [resolveOutside] at outside
    split at outside
    · exact known?_mem outside
    · rcases Option.or_eq_some_iff.mp outside with here | ⟨-, imported⟩
      · exact known?_mem here
      · exact onDemand_mem imported

theorem resolveType_mem {file : SourceFile} {context : Option TypeDeclaration} {written found : String}
    (meant : index.resolveType file context written = some found) : found ∈ index.typeNames := by
  simp only [resolveType] at meant
  split_ifs at meant
  split at meant
  · exact resolveSimple_mem meant
  · rcases (Option.orElse_eq_some _ _ _).mp meant with inner | ⟨-, whole⟩
    · obtain ⟨owner, -, known⟩ := Option.bind_eq_some_iff.mp inner
      exact known?_mem known
    · exact known?_mem whole

theorem supertypesOf_subset (file : SourceFile) (type : TypeDeclaration) (above : String)
    (member : above ∈ index.supertypesOf file type) : above ∈ index.typeNames := by
  obtain ⟨written, -, meant⟩ := List.mem_filterMap.mp member
  exact resolveType_mem meant

theorem parents_subset (fqn above : String) (member : above ∈ index.parents fqn) :
    above ∈ index.typeNames := by
  rw [parents] at member
  split at member
  · exact supertypesOf_subset _ _ above member
  · simp at member

theorem fieldType_mem {owner name found : String} (meant : index.fieldType owner name = some (some found)) :
    found ∈ index.typeNames := by
  obtain ⟨place, -, declared⟩ := List.exists_of_findSome?_eq_some meant
  obtain ⟨written, -, type⟩ := Option.map_eq_some_iff.mp declared
  exact resolveType_mem type

theorem memberType_mem {owner name found : String} (meant : index.memberType owner name = some found) :
    found ∈ index.typeNames := by
  rw [memberType] at meant
  split at meant
  · rename_i type field
    exact fieldType_mem (meant ▸ field)
  · exact known?_mem meant

theorem variableType_mem {scope : Scope} {name found : String}
    (meant : index.variableType scope name = some (some found)) : found ∈ index.typeNames := by
  rw [variableType] at meant
  split at meant
  · exact resolveType_mem (Option.some.inj meant)
  · obtain ⟨owner, -, field⟩ := List.exists_of_findSome?_eq_some meant
    exact fieldType_mem field

theorem receiverType_mem {scope : Scope} {receiver : Receiver} {found : String}
    (meant : index.receiverType scope receiver = some found) : found ∈ index.typeNames := by
  induction receiver generalizing found with
  | this => exact known?_mem meant
  | super => exact supertypesOf_subset _ _ found (List.mem_of_head? meant)
  | name id =>
      rw [receiverType] at meant
      split at meant
      · rename_i type declared
        exact variableType_mem (meant ▸ declared)
      · exact resolveType_mem meant
  | field object member ih =>
      rw [receiverType] at meant
      split_ifs at meant
      · exact ih meant
      · rcases (Option.orElse_eq_some _ _ _).mp meant with inner | ⟨-, whole⟩
        · obtain ⟨owner, -, selected⟩ := Option.bind_eq_some_iff.mp inner
          exact memberType_mem selected
        · obtain ⟨text, -, type⟩ := Option.bind_eq_some_iff.mp whole
          exact resolveType_mem type
  | creation type | cast type =>
      rw [receiverType] at meant
      exact resolveType_mem meant
  | call object name arguments line ih =>
      obtain ⟨method, -, returned⟩ := Option.bind_eq_some_iff.mp meant
      obtain ⟨place, -, type⟩ := Option.bind_eq_some_iff.mp returned
      exact resolveType_mem type
  | implicit | other => cases meant

end CallContext.SourceIndex
