import CallContext.Proofs.Resolution.Labels
import CallContext.Resolution.Call

/-!
The skeleton of a project is what is left of it without its fields, its texts, and the calls and places
of its methods. Which types written names mean and which methods types have can be read off the skeleton.
-/

namespace CallContext

open Java

def Java.Method.skeleton (method : Method) : Method :=
  { method with line := 0, calls := [] }

def Java.TypeDeclaration.skeleton (type : TypeDeclaration) : TypeDeclaration :=
  { type with fields := ∅, methods := type.methods.map Method.skeleton }

def Java.SourceFile.skeleton (file : SourceFile) : SourceFile :=
  { file with content := none, size := 0, types := file.types.map TypeDeclaration.skeleton }

def Declaration.skeleton (place : Declaration) : Declaration :=
  ⟨place.file.skeleton, place.type.skeleton⟩

def Scope.skeleton (scope : Scope) : Scope :=
  ⟨scope.file.skeleton, scope.type.skeleton, scope.method.skeleton⟩

def OwnedMethod.skeleton (found : OwnedMethod) : OwnedMethod :=
  { found with method := found.method.skeleton }

namespace SourceIndex

def skeleton (index : SourceIndex) : SourceIndex :=
  mk (index.files.map SourceFile.skeleton)

variable (index : SourceIndex)

theorem declarations_skeleton :
    index.skeleton.declarations = index.declarations.map Declaration.skeleton := by
  simp only [declarations, skeleton, files_mk, List.flatMap_map, List.map_flatMap, List.map_map]
  refine List.flatMap_congr fun file _ => ?_
  simp only [SourceFile.skeleton, List.map_map]
  rfl

theorem declaration?_skeleton (fqn : String) :
    index.skeleton.declaration? fqn = (index.declaration? fqn).map Declaration.skeleton := by
  rw [declaration?_eq_find?, declaration?_eq_find?, declarations_skeleton, List.find?_map]
  rfl

theorem alike_skeleton : index.skeleton.Alike index := by
  rw [Alike, labels, labels, declarations_skeleton, List.map_map]
  rfl

theorem importAlike_skeleton (file : SourceFile) : ImportAlike file.skeleton file :=
  ⟨rfl, fun _ => rfl, fun _ => rfl⟩

theorem resolveType_skeleton (file : SourceFile) (type : TypeDeclaration) (written : String) :
    index.skeleton.resolveType file.skeleton (some type.skeleton) written =
      index.resolveType file (some type) written :=
  index.alike_skeleton.resolveType_eq (importAlike_skeleton file) rfl written

theorem supertypesOf_skeleton (file : SourceFile) (type : TypeDeclaration) :
    index.skeleton.supertypesOf file.skeleton type.skeleton = index.supertypesOf file type :=
  List.filterMap_congr fun written _ => index.resolveType_skeleton file type written

theorem parents_skeleton : index.skeleton.parents = index.parents := by
  funext fqn
  rw [parents, parents, declaration?_skeleton]
  cases index.declaration? fqn with
  | none => rfl
  | some found => exact index.supertypesOf_skeleton found.file found.type

theorem hierarchy_skeleton (owner : String) :
    index.skeleton.hierarchy owner = (index.hierarchy owner).map Declaration.skeleton := by
  rw [hierarchy, hierarchy, parents_skeleton, index.alike_skeleton.typeNames_eq,
    List.map_filterMap]
  exact List.filterMap_congr fun fqn _ => index.declaration?_skeleton fqn

theorem ownMethods_skeleton (name : String) (type : TypeDeclaration) :
    ownMethods name type.skeleton = (ownMethods name type).map OwnedMethod.skeleton := by
  simp only [ownMethods, TypeDeclaration.skeleton, List.filter_map, List.map_map]
  rfl

theorem methodsNamed_skeleton (owner name : String) :
    index.skeleton.methodsNamed owner name =
      (index.methodsNamed owner name).map OwnedMethod.skeleton := by
  have groups : (index.skeleton.hierarchy owner).map (fun found => ownMethods name found.type) =
      ((index.hierarchy owner).map fun found => ownMethods name found.type).map
        (List.map OwnedMethod.skeleton) := by
    rw [hierarchy_skeleton, List.map_map, List.map_map]
    exact List.map_congr_left fun found _ => ownMethods_skeleton name found.type
  have filled : (fun group : List OwnedMethod => !group.isEmpty) ∘ List.map OwnedMethod.skeleton =
      fun group => !group.isEmpty := by
    funext group
    cases group <;> rfl
  rw [methodsNamed, methodsNamed, groups, List.find?_map, filled]
  cases List.find? _ _ <;> rfl

theorem fitting_skeleton (found : List OwnedMethod) (arguments : Nat) :
    fitting (found.map OwnedMethod.skeleton) arguments =
      (fitting found arguments).map OwnedMethod.skeleton := by
  have accepted : (found.map OwnedMethod.skeleton).filter (·.method.accepts arguments) =
      (found.filter (·.method.accepts arguments)).map OwnedMethod.skeleton := by
    rw [List.filter_map]
    rfl
  rw [fitting, fitting, accepted]
  cases found.filter (·.method.accepts arguments) <;> rfl

theorem target_skeleton (policy : OverloadPolicy) (found : List OwnedMethod) (arguments : Nat) :
    target policy (found.map OwnedMethod.skeleton) arguments = target policy found arguments := by
  cases found with
  | nil => rfl
  | cons first rest =>
      cases policy with
      | merge => rfl
      | distinguish =>
          have fitted := fitting_skeleton (first :: rest) arguments
          rw [List.map_cons] at fitted
          simp only [List.map_cons, target, fitted, List.map_map]
          rfl

end SourceIndex

end CallContext
