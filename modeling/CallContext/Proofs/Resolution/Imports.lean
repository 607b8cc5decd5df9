import CallContext.Proofs.Collection.Distinct
import CallContext.Proofs.Resolution.Labels
import CallContext.Proofs.Resolution.Unrelated

/-!
What the imports of a file have to do with the types that it writes. Whichever rule finds a type, the
type is indexed and has the simple name that was written. The order of the imports does not matter, and
imports of whole packages give a type only if one of the packages alone supplies it.
-/

namespace CallContext

open Java Collection Text

namespace Java.SourceFile

def ImportsSingle (file : SourceFile) (path : String) : Prop :=
  ⟨path, false, false⟩ ∈ file.imports

def ImportsAll (file : SourceFile) (package : String) : Prop :=
  ⟨package, false, true⟩ ∈ file.imports

/-- Whether different imports of single types end in different simple names. -/
def SinglesApart (file : SourceFile) : Prop :=
  ∀ path other, file.ImportsSingle path → file.ImportsSingle other →
    Name.simpleName path = Name.simpleName other → path = other

end Java.SourceFile

namespace SourceIndex

def Supplies (index : SourceIndex) (package name : String) : Prop :=
  Name.member package name ∈ index.typeNames

def DeclaresAs (again index : SourceIndex) : Prop :=
  again.files.map (·.types) = index.files.map (·.types)

variable {index : SourceIndex} {file : SourceFile} {name found : String}

theorem singleImport?_eq_some {declaration : ImportSyntax}
    (imported : singleImport? file name = some declaration) :
    file.ImportsSingle declaration.path ∧ Name.simpleName declaration.path = name := by
  have member := List.mem_of_find?_eq_some imported
  have single := List.find?_some imported
  obtain ⟨path, isStatic, wildcard⟩ := declaration
  simp only [Bool.and_eq_true, Bool.not_eq_true', beq_iff_eq] at single
  obtain ⟨⟨rfl, rfl⟩, named⟩ := single
  exact ⟨member, named⟩

theorem singleImport?_eq_none_iff :
    singleImport? file name = none ↔ ∀ path, file.ImportsSingle path → Name.simpleName path ≠ name := by
  rw [singleImport?, List.find?_eq_none]
  constructor
  · intro unlike path imported
    simpa using unlike _ imported
  · rintro apart ⟨path, isStatic, wildcard⟩ member single
    simp only [Bool.and_eq_true, Bool.not_eq_true', beq_iff_eq] at single
    obtain ⟨⟨rfl, rfl⟩, named⟩ := single
    exact apart path member named

theorem path_singleImport?_eq_some_iff (apart : file.SinglesApart) {path : String} :
    (singleImport? file name).map (·.path) = some path ↔
      file.ImportsSingle path ∧ Name.simpleName path = name := by
  constructor
  · intro first
    obtain ⟨declaration, imported, rfl⟩ := Option.map_eq_some_iff.mp first
    exact singleImport?_eq_some imported
  · rintro ⟨imported, named⟩
    cases first : singleImport? file name with
    | none => exact absurd named (singleImport?_eq_none_iff.mp first path imported)
    | some declaration =>
        obtain ⟨also, named'⟩ := singleImport?_eq_some first
        exact congrArg some (apart _ _ also imported (named'.trans named.symm))

theorem importsPackageOf_iff {fqn : String} :
    importsPackageOf file name fqn ↔
      ∃ package, file.ImportsAll package ∧ fqn = Name.member package name := by
  rw [importsPackageOf, List.any_eq_true]
  constructor
  · rintro ⟨⟨path, isStatic, wildcard⟩, member, whole⟩
    simp only [Bool.and_eq_true, Bool.not_eq_true', beq_iff_eq, Name.qualifier?_eq_some_iff] at whole
    obtain ⟨⟨rfl, rfl⟩, inPackage⟩ := whole
    exact ⟨path, member, inPackage⟩
  · rintro ⟨package, imported, inPackage⟩
    refine ⟨_, imported, ?_⟩
    simpa [Name.qualifier?_eq_some_iff] using inPackage

theorem onDemand_eq_some_iff_filter :
    index.onDemand file name = some found ↔
      (index.typesNamed name).filter (importsPackageOf file name) = [found] := by
  rw [onDemand]
  split
  · rename_i only single
    rw [single, Option.some.injEq, List.singleton_inj]
  · rename_i several
    exact ⟨nofun, fun single => (several found single).elim⟩

theorem member_of_onDemand (meant : index.onDemand file name = some found) :
    ∃ package, file.ImportsAll package ∧ found = Name.member package name := by
  have listed : found ∈ (index.typesNamed name).filter (importsPackageOf file name) := by
    rw [onDemand_eq_some_iff_filter.mp meant]
    exact List.mem_singleton_self found
  exact importsPackageOf_iff.mp (List.mem_filter.mp listed).2

section

variable (parsed : ∀ source ∈ index.files, source.IsParsed)

include parsed

theorem name_of_mem_typeNames {fqn : String} (known : fqn ∈ index.typeNames) :
    ∃ type, index.type? fqn = some type ∧ type.name = Name.simpleName fqn := by
  obtain ⟨place, declared, named⟩ := (index.mem_typeNames fqn).mp known
  have present : (index.type? fqn).isSome := by
    rw [type?_eq_map, Option.isSome_map, declaration?_eq_find?]
    exact List.find?_isSome.mpr ⟨place, declared, beq_iff_eq.mpr named⟩
  obtain ⟨type, found⟩ := Option.isSome_iff_exists.mp present
  obtain ⟨rfl, source, indexed, inFile⟩ := type?_eq_some found
  exact ⟨type, found, ((parsed source indexed).isRead.types type inFile).simpleName.symm⟩

theorem mem_typesNamed_iff {fqn : String} :
    fqn ∈ index.typesNamed name ↔ fqn ∈ index.typeNames ∧ Name.simpleName fqn = name := by
  rw [typesNamed_eq_filter, List.mem_filter]
  refine and_congr_right fun known => ?_
  obtain ⟨type, first, simple⟩ := name_of_mem_typeNames parsed known
  rw [first, Option.any_some, beq_iff_eq, simple]

theorem onDemand_eq_some_iff (dotless : '.' ∉ name.toList) :
    index.onDemand file name = some found ↔ ∃ package, found = Name.member package name ∧
      ∀ other, file.ImportsAll other ∧ index.Supplies other name ↔ other = package := by
  have given (fqn : String) :
      fqn ∈ index.typesNamed name ∧ importsPackageOf file name fqn ↔
        ∃ package, (file.ImportsAll package ∧ index.Supplies package name) ∧
          fqn = Name.member package name := by
    rw [mem_typesNamed_iff parsed, importsPackageOf_iff]
    constructor
    · rintro ⟨⟨known, -⟩, package, imported, rfl⟩
      exact ⟨package, ⟨imported, known⟩, rfl⟩
    · rintro ⟨package, ⟨imported, known⟩, rfl⟩
      refine ⟨⟨known, ?_⟩, package, imported, rfl⟩
      rw [Name.simpleName_member, Name.simpleName_of_not_mem dotless]
  rw [onDemand_eq_some_iff_filter, filter_eq_singleton_iff (nodup_typesNamed index name)]
  simp only [given]
  constructor
  · intro only
    obtain ⟨package, supplied, rfl⟩ := (only found).mpr rfl
    refine ⟨package, rfl, fun other => ⟨fun also => ?_, fun same => same ▸ supplied⟩⟩
    exact Name.member_left_inj.mp ((only _).mp ⟨other, also, rfl⟩)
  · rintro ⟨package, rfl, only⟩ fqn
    constructor
    · rintro ⟨other, also, rfl⟩
      rw [(only other).mp also]
    · rintro rfl
      exact ⟨package, (only package).mpr rfl, rfl⟩

end

theorem simpleName_of_amongEnclosing {owners : List String} (dotless : '.' ∉ name.toList)
    (meant : index.amongEnclosing owners name = some found) : Name.simpleName found = name := by
  obtain ⟨owner, -, chosen⟩ := List.exists_of_findSome?_eq_some meant
  split_ifs at chosen with same
  · obtain rfl := Option.some.inj chosen
    exact beq_iff_eq.mp same
  · rw [(known?_eq_some chosen).1, Name.simpleName_member, Name.simpleName_of_not_mem dotless]

theorem simpleName_of_resolveOutside (written : name ≠ "") (dotless : '.' ∉ name.toList)
    (meant : index.resolveOutside file name = some found) : Name.simpleName found = name := by
  have simple := Name.simpleName_of_not_mem dotless
  rw [resolveOutside] at meant
  split at meant
  · rename_i declaration imported
    rw [(known?_eq_some meant).1]
    exact (singleImport?_eq_some imported).2
  · rcases Option.or_eq_some_iff.mp meant with here | ⟨-, whole⟩
    · rw [(known?_eq_some here).1, Name.simpleName_join_pair _ written, simple]
    · obtain ⟨package, -, rfl⟩ := member_of_onDemand whole
      rw [Name.simpleName_member, simple]

theorem simpleName_of_resolveType {context : Option TypeDeclaration} {written : String}
    (meant : index.resolveType file context written = some found) :
    Name.simpleName found = Name.simpleName (TypeText.erase written) := by
  simp only [resolveType] at meant
  split_ifs at meant with unowned
  split at meant
  · rename_i whole
    have dotless := Name.splitHead_eq_none whole
    rw [Name.simpleName_of_not_mem dotless]
    rw [resolveSimple_eq_or] at meant
    rcases Option.or_eq_some_iff.mp meant with inner | ⟨-, outside⟩
    · exact simpleName_of_amongEnclosing dotless inner
    · refine simpleName_of_resolveOutside (fun empty => unowned ?_) dotless outside
      rw [empty]
      rfl
  · rename_i head rest cut
    rcases (Option.orElse_eq_some _ _ _).mp meant with inner | ⟨-, whole⟩
    · obtain ⟨owner, -, known⟩ := Option.bind_eq_some_iff.mp inner
      rw [(known?_eq_some known).1, (Name.splitHead_eq_some cut).1, Name.simpleName_member,
        Name.simpleName_member]
    · rw [(known?_eq_some whole).1]

theorem DeclaresAs.alike {again : SourceIndex} (types : again.DeclaresAs index) : again.Alike index := by
  have flat (project : SourceIndex) : project.labels =
      ((project.files.map (·.types)).flatten).map TypeDeclaration.label := by
    simp [labels, declarations, List.flatMap_def, List.map_flatten, Function.comp_def]
  rw [Alike, flat, flat, types]

theorem importAlike_of_perm {other : SourceFile} (apart : file.SinglesApart)
    (perm : other.imports.Perm file.imports) (package : other.package = file.package) :
    ImportAlike other file where
  package := package
  single name := by
    have imports (path : String) : other.ImportsSingle path ↔ file.ImportsSingle path :=
      perm.mem_iff
    have apart' : other.SinglesApart := by simpa only [SourceFile.SinglesApart, imports] using apart
    ext path
    rw [path_singleImport?_eq_some_iff apart', path_singleImport?_eq_some_iff apart, imports]
  whole name := funext fun _ => perm.any_eq

theorem resolveType_of_isArray {context : Option TypeDeclaration} {written element : String}
    (array : TypeText.erase written = element ++ "[]" ∨ TypeText.erase written = element ++ "...") :
    index.resolveType file context written = none := by
  have isArray : TypeText.isArray (TypeText.erase written) := by
    rcases array with brackets | dots
    · rw [TypeText.isArray, brackets, String.toList_append, dropEnd?_append, Option.isSome_some,
        Bool.true_or]
    · rw [TypeText.isArray, dots, String.toList_append, dropEnd?_append "...".toList, Option.isSome_some,
        Bool.or_true]
  simp only [resolveType, isArray, Bool.or_true, if_true]

/-- What a written type means is an indexed type of the written simple name, it is no array, and it
does not depend on the order of the imports. Where the types around the place, the imports of single
types and the package give nothing, it is the type of the only imported package that supplies one, unless
there is an import of a single type that is not indexed. -/
theorem resolveType_sound (parsed : ∀ source ∈ index.files, source.IsParsed) (file : SourceFile)
    (context : Option TypeDeclaration) (written : String) :
    (∀ found, index.resolveType file context written = some found →
      found ∈ index.typeNames ∧
        Name.simpleName found = Name.simpleName (TypeText.erase written)) ∧
    (∀ element, TypeText.erase written = element ++ "[]" ∨ TypeText.erase written = element ++ "..." →
      index.resolveType file context written = none) ∧
    (∀ (again : SourceIndex) (other : SourceFile), file.SinglesApart →
      other.imports.Perm file.imports → other.package = file.package → again.DeclaresAs index →
        again.resolveType other context written = index.resolveType file context written) ∧
    ∀ name, '.' ∉ name.toList →
      index.amongEnclosing (index.ownersAround context) name = none →
      ((singleImport? file name).bind fun declaration => index.known? declaration.path) = none →
      index.known? (Name.join '.' [file.package, name]) = none →
        ∀ found, index.resolveSimple file context name = some found ↔
          (∀ path, file.ImportsSingle path → Name.simpleName path ≠ name) ∧
          ∃ package, found = Name.member package name ∧
            ∀ other, file.ImportsAll other ∧ index.Supplies other name ↔ other = package := by
  refine ⟨fun found meant => ⟨resolveType_mem meant, simpleName_of_resolveType meant⟩,
    fun element => resolveType_of_isArray,
    fun again other apart perm package types =>
      types.alike.resolveType_eq (importAlike_of_perm apart perm package) rfl written,
    fun name dotless around single here found => ?_⟩
  rw [resolveSimple_eq_or, around, Option.none_or, resolveOutside, ← singleImport?_eq_none_iff,
    ← onDemand_eq_some_iff parsed dotless]
  cases imported : singleImport? file name with
  | none => simp [here]
  | some declaration =>
      rw [imported, Option.bind_some] at single
      simp [single]

def suppliers : List SourceFile :=
  [readOr "b/All.java" "package b; class Spare { } class Twin { } class Tool { }",
    readOr "c/Tool.java" "package c; class Tool { }", readOr "d/Twin.java" "package d; class Twin { }"]

def importing : SourceFile :=
  readOr "a/Main.java" "package a; import b.*; import c.Tool; import d.*; class Main { }"

def reimporting : SourceFile :=
  { importing with imports := importing.imports.reverse }

theorem resolveType_sound_importing :
    let index := SourceIndex.mk (importing :: suppliers)
    let again := SourceIndex.mk (reimporting :: suppliers)
    ((∀ source ∈ index.files, source.IsParsed) ∧ importing.SinglesApart ∧
      reimporting.imports.Perm importing.imports ∧ again.DeclaresAs index) ∧
    reimporting.imports = [⟨"d", false, true⟩, ⟨"c.Tool", false, false⟩, ⟨"b", false, true⟩] ∧
    again.resolveType reimporting none "Spare<String>" = some "b.Spare" ∧
    again.resolveType reimporting none "Tool" = some "c.Tool" ∧
    again.resolveType reimporting none "Twin" = none ∧
    index.resolveType importing none "Spare[]" = none ∧ "b.Spare" ∈ index.typeNames ∧
    ∀ other, importing.ImportsAll other ∧ index.Supplies other "Spare" ↔ other = "b" := by
  intro index again
  have parsed : ∀ source ∈ index.files, source.IsParsed := by
    intro source member
    simp only [index, files_mk, suppliers, List.mem_cons, List.not_mem_nil, or_false] at member
    rcases member with rfl | rfl | rfl | rfl
    all_goals exact isParsed_readOr (by decide +kernel)
  have imports : importing.imports =
      [⟨"b", false, true⟩, ⟨"c.Tool", false, false⟩, ⟨"d", false, true⟩] := by decide +kernel
  have apart : importing.SinglesApart := by
    intro path other first second _
    simp only [SourceFile.ImportsSingle, imports] at first second
    simp_all
  have perm : reimporting.imports.Perm importing.imports := List.reverse_perm _
  have sound (written : String) := resolveType_sound parsed importing none written
  have same (written : String) := (sound written).2.2.1 again reimporting apart perm rfl rfl
  obtain ⟨spare, tool, twin, around, single, here, simple⟩ :
      index.resolveType importing none "Spare<String>" = some "b.Spare" ∧
      index.resolveType importing none "Tool" = some "c.Tool" ∧
      index.resolveType importing none "Twin" = none ∧
      index.amongEnclosing (index.ownersAround none) "Spare" = none ∧
      ((singleImport? importing "Spare").bind fun declaration => index.known? declaration.path) = none ∧
      index.known? (Name.join '.' [importing.package, "Spare"]) = none ∧
      index.resolveSimple importing none "Spare" = some "b.Spare" := by decide +kernel
  obtain ⟨-, package, found, only⟩ :=
    ((sound "Spare").2.2.2 "Spare" (by decide) around single here "b.Spare").mp simple
  have inPackage : Name.member "b" "Spare" = "b.Spare" := by decide
  obtain rfl : "b" = package := Name.member_left_inj.mp (inPackage.trans found)
  exact ⟨⟨parsed, apart, perm, rfl⟩, by rw [reimporting, imports]; rfl,
    (same _).trans spare, (same _).trans tool, (same _).trans twin,
    (sound "Spare[]").2.1 "Spare" (.inl (by decide)), ((sound _).1 _ spare).1, only⟩

end SourceIndex

end CallContext
