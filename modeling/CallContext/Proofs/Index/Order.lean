import CallContext.Proofs.CallGraph.Log
import CallContext.Proofs.Collection.Sorted
import CallContext.Proofs.Index

namespace CallContext

open Java Collection

namespace SourceIndex

theorem files_ofFiles (files : List SourceFile) :
    (ofFiles files).files = files.mergeSort (byKey SourceFile.path) :=
  rfl

theorem perm_files_ofFiles (files : List SourceFile) : (ofFiles files).files.Perm files :=
  files.mergeSort_perm _

theorem pairwise_files_ofFiles (files : List SourceFile) :
    (ofFiles files).files.Pairwise fun a b => a.path ≤ b.path :=
  pairwise_mergeSort_byKey SourceFile.path files

theorem ofFiles_eq_of_perm {files others : List SourceFile}
    (distinct : (files.map (·.path)).Nodup) (perm : files.Perm others) :
    ofFiles files = ofFiles others := by
  have sorted := mergeSort_byKey_of_perm SourceFile.path distinct perm
  rw [← files_ofFiles, ← files_ofFiles] at sorted
  exact congrArg SourceIndex.mk sorted

theorem sorted_files_ofFiles {files : List SourceFile} (distinct : (files.map (·.path)).Nodup) :
    (ofFiles files).files.Pairwise fun a b => a.path < b.path := by
  have nodup : ((ofFiles files).files.map (·.path)).Nodup :=
    ((perm_files_ofFiles files).map _).nodup_iff.mpr distinct
  have apart := List.pairwise_map.mp nodup
  refine ((pairwise_files_ofFiles files).and apart).imp fun {a b} both => ?_
  exact String.not_le.mp fun ge => both.2 (String.le_antisymm both.1 ge)

theorem pairwise_declarations_ofFiles (files : List SourceFile) :
    (ofFiles files).declarations.Pairwise fun a b => a.file.path ≤ b.file.path := by
  rw [declarations, List.pairwise_flatMap]
  constructor
  · intro file _
    rw [List.pairwise_map]
    exact List.pairwise_of_forall fun _ _ => String.le_refl file.path
  · refine (pairwise_files_ofFiles files).imp fun le before here after there => ?_
    obtain ⟨_, -, rfl⟩ := List.mem_map.mp here
    obtain ⟨_, -, rfl⟩ := List.mem_map.mp there
    exact le

theorem path_le_of_declaration? {files : List SourceFile} {fqn : String} {place : Declaration}
    (found : (ofFiles files).declaration? fqn = some place) {file : SourceFile} (given : file ∈ files)
    {type : TypeDeclaration} (declared : type ∈ file.types) (named : type.fqn = fqn) :
    place.file.path ≤ file.path := by
  rw [declaration?_eq_find?] at found
  obtain ⟨-, before, after, split, earlier⟩ := List.find?_eq_some_iff_append.mp found
  have member : ⟨file, type⟩ ∈ (ofFiles files).declarations :=
    (mem_declarations _ _).mpr ⟨(mem_files_ofFiles files file).mpr given, declared⟩
  have sorted := pairwise_declarations_ofFiles files
  rw [split] at member sorted
  rcases List.mem_append.mp member with first | rest
  · have other := earlier _ first
    simp [named] at other
  · rcases List.mem_cons.mp rest with rfl | later
    · exact String.le_refl _
    · exact (List.pairwise_cons.mp (List.pairwise_append.mp sorted).2.1).1 _ later

/-- Every order of the same files gives the same index and the same graphs, which are those of the
files by increasing path. -/
theorem ofFiles_order_irrelevant {files others : List SourceFile}
    (distinct : (files.map (·.path)).Nodup) (perm : files.Perm others) :
    let index := ofFiles files
    let other := ofFiles others
    index.files = other.files ∧
    (∀ path, index.file? path = other.file? path) ∧
    index.declarations = other.declarations ∧
    (∀ fqn, index.type? fqn = other.type? fqn) ∧
    (∀ fqn, index.fileOfType? fqn = other.fileOfType? fqn) ∧
    (∀ fqn, index.hasType fqn = other.hasType fqn) ∧
    (∀ name, index.typesNamed name = other.typesNamed name) ∧
    (∀ resolver policy,
      let graph := CallGraph.build index resolver policy
      let again := CallGraph.build other resolver policy
      graph.locations.toList = again.locations.toList ∧ graph.nodes = again.nodes ∧
        graph.edges = again.edges ∧ graph = again) ∧
    index.files.Perm files ∧
    index.files.Pairwise (fun a b => a.path < b.path) ∧
    ∀ fqn place, index.declaration? fqn = some place →
      ∀ file ∈ files, ∀ type ∈ file.types, type.fqn = fqn → place.file.path ≤ file.path := by
  intro index other
  have same : index = other := ofFiles_eq_of_perm distinct perm
  have meant : ∀ fqn place, index.declaration? fqn = some place →
      ∀ file ∈ files, ∀ type ∈ file.types, type.fqn = fqn → place.file.path ≤ file.path :=
    fun fqn place found file given type declared named =>
      path_le_of_declaration? found given declared named
  rw [← same]
  exact ⟨rfl, fun _ => rfl, rfl, fun _ => rfl, fun _ => rfl, fun _ => rfl, fun _ => rfl,
    fun _ _ => ⟨rfl, rfl, rfl, rfl⟩, perm_files_ofFiles files, sorted_files_ofFiles distinct, meant⟩

def sharedType : List SourceFile :=
  [("b/T.java", "package p; class T { void go() { } void late() { } }"),
    ("c/U.java", "package p; class U { void run(T t) { t.go(); } }"),
    ("a/T.java", "package p; class T { void go() { } }")].filterMap fun (path, text) =>
      (SourceFile.parse path text).toOption

theorem ofFiles_order_irrelevant_sharedType :
    let index := ofFiles sharedType
    let other := ofFiles sharedType.reverse
    ((sharedType.map (·.path)).Nodup ∧ sharedType.Perm sharedType.reverse) ∧
    (index.declarations = other.declarations ∧
      ∀ policy, CallGraph.build index (.available policy) policy =
        CallGraph.build other (.available policy) policy) ∧
    sharedType.map (·.path) = ["b/T.java", "c/U.java", "a/T.java"] ∧
    sharedType.flatMap (·.types.map (·.fqn)) = ["p.T", "p.U", "p.T"] := by
  intro index other
  have paths : sharedType.map (·.path) = ["b/T.java", "c/U.java", "a/T.java"] := by decide +kernel
  have distinct : (sharedType.map (·.path)).Nodup := by rw [paths]; decide
  have perm : sharedType.Perm sharedType.reverse := sharedType.reverse_perm.symm
  have alike := ofFiles_order_irrelevant distinct perm
  refine ⟨⟨distinct, perm⟩, ⟨alike.2.2.1, fun policy => ?_⟩, paths, by decide +kernel⟩
  exact (alike.2.2.2.2.2.2.2.1 (.available policy) policy).2.2.2

end SourceIndex

end CallContext
