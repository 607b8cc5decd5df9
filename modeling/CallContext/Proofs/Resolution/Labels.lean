import CallContext.Proofs.Resolution.TypeName

/-!
What a written type means can be read off the labels of the types of a project, which say how a type is
named and what it is declared in. Projects with the same labels give it the same meaning in files of one
package that import the same types.
-/

namespace CallContext

open Java

/-- A type without what it declares. -/
structure Label where
  name : String
  fqn : String
  outer : Option String

def Java.TypeDeclaration.label (type : TypeDeclaration) : Label :=
  ⟨type.name, type.fqn, type.outer⟩

namespace SourceIndex

def labels (index : SourceIndex) : List Label :=
  index.declarations.map (·.type.label)

def Alike (again index : SourceIndex) : Prop :=
  again.labels = index.labels

structure ImportAlike (other file : SourceFile) : Prop where
  package : other.package = file.package
  single : ∀ name,
    (singleImport? other name).map (·.path) = (singleImport? file name).map (·.path)
  whole : ∀ name, importsPackageOf other name = importsPackageOf file name

theorem map_label_type? (index : SourceIndex) (fqn : String) :
    (index.type? fqn).map TypeDeclaration.label = index.labels.find? (·.fqn == fqn) := by
  rw [type?_eq_map, declaration?_eq_find?, labels, List.find?_map, Option.map_map]
  rfl

theorem typeNames_eq_labels (index : SourceIndex) :
    index.typeNames = (index.labels.map (·.fqn)).eraseDups := by
  rw [typeNames, labels, List.map_map]
  rfl

section

variable {again index : SourceIndex} (alike : again.Alike index)

include alike

theorem Alike.label_eq (fqn : String) :
    (again.type? fqn).map TypeDeclaration.label = (index.type? fqn).map TypeDeclaration.label := by
  rw [map_label_type?, map_label_type?, alike]

theorem Alike.known?_eq (fqn : String) : again.known? fqn = index.known? fqn := by
  have byLabel (project : SourceIndex) :
      project.known? fqn = ((project.type? fqn).map TypeDeclaration.label).map (·.fqn) := by
    rw [known?, Option.map_map]
    rfl
  rw [byLabel, byLabel, alike.label_eq]

theorem Alike.typeNames_eq : again.typeNames = index.typeNames := by
  rw [typeNames_eq_labels, typeNames_eq_labels, alike]

theorem Alike.typesNamed_eq (name : String) : again.typesNamed name = index.typesNamed name := by
  have byLabel (project : SourceIndex) (fqn : String) : (project.type? fqn).any (·.name == name) =
      ((project.type? fqn).map TypeDeclaration.label).any (·.name == name) := by
    rw [Option.any_map]
    rfl
  simp only [typesNamed_eq_filter, byLabel, alike.label_eq, alike.typeNames_eq]

theorem Alike.enclosingWithin_eq (limit : Nat) (fqn : String) :
    again.enclosingWithin limit fqn = index.enclosingWithin limit fqn := by
  induction limit generalizing fqn with
  | zero => rfl
  | succ limit ih =>
      have byLabel (project : SourceIndex) : project.enclosingWithin (limit + 1) fqn =
          ((project.type? fqn).map TypeDeclaration.label).elim [] fun label =>
            label.fqn :: label.outer.elim [] (project.enclosingWithin limit) := by
        rw [enclosingWithin]
        cases project.type? fqn with
        | none => rfl
        | some type => cases outer : type.outer <;> simp [TypeDeclaration.label, outer]
      rw [byLabel, byLabel, alike.label_eq, funext ih]

theorem Alike.ownersAround_eq {context current : Option TypeDeclaration}
    (around : current.map (·.fqn) = context.map (·.fqn)) :
    again.ownersAround current = index.ownersAround context := by
  have byName (project : SourceIndex) (context : Option TypeDeclaration) :
      project.ownersAround context = (context.map (·.fqn)).elim [] fun fqn =>
        project.enclosingWithin (fqn.length + 1) fqn := by
    cases context <;> rfl
  simp only [byName, around, alike.enclosingWithin_eq]

variable {other file : SourceFile} (imports : ImportAlike other file)

include imports

theorem Alike.resolveOutside_eq (name : String) :
    again.resolveOutside other name = index.resolveOutside file name := by
  have byPath (project : SourceIndex) (source : SourceFile) :
      project.resolveOutside source name = ((singleImport? source name).map (·.path)).elim
        ((project.known? (Name.join '.' [source.package, name])).or (project.onDemand source name))
        project.known? := by
    rw [resolveOutside]
    cases singleImport? source name <;> rfl
  have demanded : again.onDemand other name = index.onDemand file name := by
    rw [onDemand, onDemand, alike.typesNamed_eq, imports.whole]
  rw [byPath, byPath, imports.single, imports.package, demanded, funext alike.known?_eq]

theorem Alike.resolveType_eq {context current : Option TypeDeclaration}
    (around : current.map (·.fqn) = context.map (·.fqn)) (written : String) :
    again.resolveType other current written = index.resolveType file context written := by
  have simple (name : String) :
      again.resolveSimple other current name = index.resolveSimple file context name := by
    rw [resolveSimple_eq_or, resolveSimple_eq_or, alike.ownersAround_eq around,
      alike.resolveOutside_eq imports]
    simp only [amongEnclosing, alike.known?_eq]
  simp only [resolveType, simple, alike.known?_eq]

end

end SourceIndex

end CallContext
