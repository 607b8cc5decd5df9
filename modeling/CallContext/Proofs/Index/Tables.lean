import CallContext.Proofs.Collection.Table
import CallContext.SourceIndex

/-!
The tables of an index. They are made in one pass over the files, which adds types one by one; what has been
added determines them, and so looking up in an index is searching its files and types in order.
-/

namespace CallContext

open Java Collection

namespace Declaration

def first? (declared : List Declaration) (fqn : String) : Option Declaration :=
  declared.find? (·.type.fqn == fqn)

def fqnsNamed (declared : List Declaration) (name : String) : List String :=
  (declared.map (·.type.fqn)).eraseDups.filter fun fqn => (first? declared fqn).any (·.type.name == name)

variable {declared : List Declaration} {last : Declaration}

theorem first?_concat (declared : List Declaration) (last : Declaration) (fqn : String) :
    first? (declared ++ [last]) fqn =
      (first? declared fqn).or (if last.type.fqn = fqn then some last else none) := by
  rw [first?, List.find?_append, List.find?_singleton]
  simp only [first?, beq_iff_eq]

theorem first?_isSome {fqn : String} :
    (first? declared fqn).isSome ↔ fqn ∈ declared.map (·.type.fqn) := by
  simp [first?]

theorem fqnsNamed_concat (declared : List Declaration) (last : Declaration) (name : String) :
    fqnsNamed (declared ++ [last]) name =
      if last.type.fqn ∉ declared.map (·.type.fqn) ∧ last.type.name = name then
        fqnsNamed declared name ++ [last.type.fqn]
      else fqnsNamed declared name := by
  -- What has been first stays first.
  have kept : ∀ fqn ∈ (declared.map (·.type.fqn)).eraseDups,
      (first? (declared ++ [last]) fqn).any (·.type.name == name) =
        (first? declared fqn).any (·.type.name == name) := by
    intro fqn member
    obtain ⟨place, found⟩ := Option.isSome_iff_exists.mp (first?_isSome.mpr (List.mem_eraseDups.mp member))
    rw [first?_concat, found, Option.some_or]
  rw [fqnsNamed, List.map_append, List.map_singleton, eraseDups_concat]
  by_cases known : last.type.fqn ∈ declared.map (·.type.fqn)
  · rw [if_pos known, if_neg fun new => new.1 known, List.filter_congr kept, fqnsNamed]
  · have missing : first? declared last.type.fqn = none :=
      Option.not_isSome_iff_eq_none.mp fun found => known (first?_isSome.mp found)
    rw [if_neg known, List.filter_append, List.filter_congr kept, fqnsNamed]
    by_cases named : last.type.name = name
    · rw [if_pos ⟨known, named⟩]
      simp [first?_concat, missing, named]
    · rw [if_neg fun new => named new.2]
      simp [first?_concat, missing, named]

end Declaration

namespace IndexTables

def placesIn (file : SourceFile) (position : Nat) : List ((Nat × Nat) × Declaration) :=
  file.types.zipIdx.map fun (type, place) => ((position, place), ⟨file, type⟩)

def places (files : List SourceFile) : List ((Nat × Nat) × Declaration) :=
  files.zipIdx.flatMap fun (file, position) => placesIn file position

structure Holds (tables : IndexTables) (files : List SourceFile)
    (placed : List ((Nat × Nat) × Declaration)) : Prop where
  byPath : tables.byPath = .ofList (files.zipIdx.map fun (file, position) => (file.path, position))
  byFqn : tables.byFqn = .ofList (placed.map fun (position, place) => (place.type.fqn, position))
  bySimpleName : ∀ name,
    (tables.bySimpleName.get? name).getD [] = Declaration.fqnsNamed (placed.map (·.2)) name

variable {tables : IndexTables} {files : List SourceFile} {placed : List ((Nat × Nat) × Declaration)}

theorem Holds.keys_byFqn (holds : Holds tables files placed) (fqn : String) :
    fqn ∈ tables.byFqn.keys ↔ fqn ∈ (placed.map (·.2)).map (·.type.fqn) := by
  rw [holds.byFqn, Table.keys_ofList, List.mem_eraseDups, List.map_map, List.map_map]
  rfl

theorem Holds.addType (holds : Holds tables files placed) (position : Nat × Nat) (place : Declaration) :
    Holds (tables.addType position place.type) files (placed ++ [(position, place)]) := by
  have places : (placed ++ [(position, place)]).map (·.2) = placed.map (·.2) ++ [place] := by simp
  have entries : ((placed ++ [(position, place)]).map fun (position, place) =>
      (place.type.fqn, position)) = placed.map (fun (position, place) => (place.type.fqn, position)) ++
        [(place.type.fqn, position)] := by simp
  unfold IndexTables.addType
  by_cases known : place.type.fqn ∈ tables.byFqn.keys
  · rw [Table.contains, if_pos (List.contains_iff_mem.mpr known)]
    refine ⟨holds.byPath, ?_, fun name => ?_⟩
    · rw [entries, Table.ofList_concat, ← holds.byFqn, Table.insertNew, dif_pos known]
    · rw [places, Declaration.fqnsNamed_concat, if_neg fun new => new.1 ((holds.keys_byFqn _).mp known),
        holds.bySimpleName]
  · rw [Table.contains, if_neg fun there => known (List.contains_iff_mem.mp there)]
    refine ⟨holds.byPath, ?_, fun name => ?_⟩
    · rw [entries, Table.ofList_concat, ← holds.byFqn, Table.put, Table.alter, if_neg known]
    · have fresh : place.type.fqn ∉ (placed.map (·.2)).map (·.type.fqn) :=
        fun member => known ((holds.keys_byFqn _).mpr member)
      rw [places, Declaration.fqnsNamed_concat, Table.get?_alter, ← holds.bySimpleName]
      by_cases named : place.type.name = name
      · rw [if_pos named.symm, if_pos ⟨fresh, named⟩, Option.getD_some, named]
      · rw [if_neg (Ne.symm named), if_neg fun new => named new.2]

theorem Holds.addTypes (holds : Holds tables files placed) (file : SourceFile) (position : Nat)
    (types : List (TypeDeclaration × Nat)) :
    Holds (types.foldl (fun tables (type, place) => tables.addType (position, place) type) tables) files
      (placed ++ types.map fun (type, place) => ((position, place), ⟨file, type⟩)) := by
  induction types generalizing tables placed with
  | nil => simpa using holds
  | cons first rest ih =>
      have further := ih (holds.addType (position, first.2) ⟨file, first.1⟩)
      rwa [List.append_assoc, List.singleton_append] at further

theorem Holds.addFile (holds : Holds tables files (places files)) (file : SourceFile) :
    Holds (tables.addFile files.length file) (files ++ [file]) (places (files ++ [file])) := by
  have added : places (files ++ [file]) = places files ++ placesIn file files.length := by
    simp [places, List.zipIdx_append]
  have named : Holds { tables with byPath := tables.byPath.insertNew file.path files.length }
      (files ++ [file]) (places files) := by
    refine ⟨?_, holds.byFqn, holds.bySimpleName⟩
    rw [holds.byPath, List.zipIdx_append, List.map_append, Nat.zero_add]
    exact (Table.ofList_concat _ (file.path, files.length)).symm
  rw [added]
  exact named.addTypes file files.length file.types.zipIdx

theorem holds_ofFiles (files : List SourceFile) : Holds (ofFiles files) files (places files) := by
  induction files using List.reverseRecOn with
  | nil => exact ⟨rfl, rfl, fun _ => rfl⟩
  | append_singleton files file ih =>
      have made : ofFiles (files ++ [file]) = (ofFiles files).addFile files.length file := by
        simp [ofFiles, List.zipIdx_append]
      rw [made]
      exact ih.addFile file

theorem mem_places {files : List SourceFile} {position : Nat × Nat} {place : Declaration}
    (member : (position, place) ∈ places files) :
    files[position.1]? = some place.file ∧ place.file.types[position.2]? = some place.type := by
  obtain ⟨⟨file, index⟩, listed, inFile⟩ := List.mem_flatMap.mp member
  obtain ⟨⟨type, inner⟩, declared, same⟩ := List.mem_map.mp inFile
  obtain ⟨rfl, rfl⟩ := Prod.mk.inj same
  exact ⟨List.mem_zipIdx_iff_getElem?.mp listed, List.mem_zipIdx_iff_getElem?.mp declared⟩

end IndexTables

namespace SourceIndex

open IndexTables

theorem map_places (index : SourceIndex) : (places index.files).map (·.2) = index.declarations := by
  have inner (file : SourceFile) (position : Nat) :
      (placesIn file position).map (·.2) = file.types.map fun type => ⟨file, type⟩ := by
    conv_rhs => rw [← List.zipIdx_map_fst 0 file.types]
    rw [placesIn, List.map_map, List.map_map]
    rfl
  conv_rhs => rw [declarations, ← List.zipIdx_map_fst 0 index.files]
  rw [places, List.map_flatMap, List.flatMap_map]
  simp only [inner]

theorem holds_tables (index : SourceIndex) : Holds index.tables index.files (places index.files) :=
  index.tables_eq ▸ holds_ofFiles index.files

theorem first?_declarations (index : SourceIndex) (fqn : String) :
    Declaration.first? index.declarations fqn =
      ((places index.files).find? fun (_, place) => place.type.fqn == fqn).map (·.2) := by
  rw [← map_places, Declaration.first?, List.find?_map]
  rfl

theorem get?_byFqn (index : SourceIndex) (fqn : String) :
    index.tables.byFqn.get? fqn =
      ((places index.files).find? fun (_, place) => place.type.fqn == fqn).map (·.1) := by
  rw [index.holds_tables.byFqn, Table.get?_ofList, List.find?_map, Option.map_map]
  rfl

theorem get?_byFqn_cases (index : SourceIndex) (fqn : String) :
    (index.tables.byFqn.get? fqn = none ∧ Declaration.first? index.declarations fqn = none) ∨
    ∃ position place, index.tables.byFqn.get? fqn = some position ∧
      Declaration.first? index.declarations fqn = some place ∧
      index.files[position.1]? = some place.file ∧ place.file.types[position.2]? = some place.type := by
  rw [get?_byFqn, first?_declarations]
  cases found : (places index.files).find? fun (_, place) => place.type.fqn == fqn with
  | none => exact .inl ⟨rfl, rfl⟩
  | some placed =>
      obtain ⟨position, place⟩ := placed
      exact .inr ⟨position, place, rfl, rfl, mem_places (List.mem_of_find?_eq_some found)⟩

theorem declaration?_eq_find? (index : SourceIndex) (fqn : String) :
    index.declaration? fqn = index.declarations.find? (·.type.fqn == fqn) := by
  unfold declaration? fileOfType? type?
  rcases index.get?_byFqn_cases fqn with ⟨missing, none⟩ | ⟨position, place, found, first, file, type⟩
  · rw [missing, ← Declaration.first?, none]
    rfl
  · rw [found, ← Declaration.first?, first]
    simp [file, type]

theorem type?_eq_map (index : SourceIndex) (fqn : String) :
    index.type? fqn = (index.declaration? fqn).map (·.type) := by
  rw [declaration?_eq_find?, ← Declaration.first?, type?]
  rcases index.get?_byFqn_cases fqn with ⟨missing, none⟩ | ⟨position, place, found, first, file, type⟩
  · rw [missing, none]
    rfl
  · rw [found, first]
    simp [file, type]

theorem fileOfType?_eq_map (index : SourceIndex) (fqn : String) :
    index.fileOfType? fqn = (index.declaration? fqn).map (·.file) := by
  rw [declaration?_eq_find?, ← Declaration.first?, fileOfType?]
  rcases index.get?_byFqn_cases fqn with ⟨missing, none⟩ | ⟨position, place, found, first, file, -⟩
  · rw [missing, none]
    rfl
  · rw [found, first]
    simp [file]

theorem hasType_eq_isSome (index : SourceIndex) (fqn : String) :
    index.hasType fqn = (index.declaration? fqn).isSome := by
  rw [declaration?_eq_find?, ← Declaration.first?, Bool.eq_iff_iff, Declaration.first?_isSome, ← map_places,
    ← index.holds_tables.keys_byFqn]
  exact List.contains_iff_mem

theorem typesNamed_eq_filter (index : SourceIndex) (name : String) :
    index.typesNamed name =
      index.typeNames.filter fun fqn => (index.type? fqn).any (·.name == name) := by
  rw [typesNamed, index.holds_tables.bySimpleName, map_places, Declaration.fqnsNamed, typeNames]
  apply List.filter_congr
  intro fqn _
  rw [type?_eq_map, declaration?_eq_find?, Option.any_map, Declaration.first?]

theorem nodup_typesNamed (index : SourceIndex) (name : String) : (index.typesNamed name).Nodup := by
  rw [typesNamed_eq_filter]
  exact (nodup_eraseDups _).filter _

theorem file?_eq_find? (index : SourceIndex) (path : String) :
    index.file? path = index.files.find? (·.path == path) := by
  have find : index.files.find? (·.path == path) =
      (index.files.zipIdx.find? fun (file, _) => file.path == path).map (·.1) := by
    conv_lhs => rw [← List.zipIdx_map_fst 0 index.files]
    rw [List.find?_map]
    rfl
  have position : index.tables.byPath.get? path =
      (index.files.zipIdx.find? fun (file, _) => file.path == path).map (·.2) := by
    rw [index.holds_tables.byPath, Table.get?_ofList, List.find?_map, Option.map_map]
    rfl
  rw [file?, position, find]
  cases found : index.files.zipIdx.find? fun (file, _) => file.path == path with
  | none => rfl
  | some placed => exact List.mem_zipIdx_iff_getElem?.mp (List.mem_of_find?_eq_some found)

end SourceIndex

end CallContext
