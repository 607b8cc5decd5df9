import CallContext.Proofs.Index.Lookup
import CallContext.Proofs.Java.Nesting
import CallContext.Proofs.Resolution.TypeName

/-!
The types around a type. On the way outwards a type is followed by what is indexed under the name of the type
that it is declared in, and that may stand in another file, where it is nested in other types or in none. The
way has an end even so, because the names on it become shorter: in every file that has been read, the name of
a type begins with that of the type around it.
-/

namespace CallContext

open Java

theorem Java.SourceFile.IsParsed.isQualified {file : SourceFile} (parsed : file.IsParsed) :
    ∀ type ∈ file.types, type.IsQualified := by
  obtain ⟨text, whole, read, same⟩ := parsed
  obtain ⟨items, rfl⟩ := SourceFile.parse_eq_ok read
  obtain ⟨trees, declared, types⟩ := Item.exists_areDeclared "" items
  have nodes : file.types = trees.flatMap TypeTree.types := by
    rw [same]
    exact types
  rw [nodes]
  exact declared.isQualified

theorem Name.length_lt_member (owner name : String) : owner.length < (Name.member owner name).length := by
  rw [← String.length_toList, ← String.length_toList, Name.toList_member, List.length_append, List.length_cons]
  omega

namespace SourceIndex

/-- The way outwards from a type, if there is one, has an end, and these are the names on it. Their number has no
limit. -/
inductive GoesOutwards (index : SourceIndex) : Option TypeDeclaration → List String → Prop
  | outside : GoesOutwards index none []
  | inside {type : TypeDeclaration} {names : List String}
      (further : GoesOutwards index (type.outer.bind index.type?) names) :
      GoesOutwards index (some type) (type.fqn :: names)

structure IsNestedIn (index : SourceIndex) (name around : String) : Prop where
  outer : ∃ type, index.type? name = some type ∧ type.outer = some around
  indexed : index.hasType around
  front : ∃ last, last ≠ "" ∧ name = Name.member around last

variable {index : SourceIndex}

theorem type?_fqn {name : String} {type : TypeDeclaration} (found : index.type? name = some type) :
    index.type? type.fqn = some type := by
  rwa [(type?_eq_some found).1]

theorem type?_fqn_of_bind {outer : Option String} {type : TypeDeclaration}
    (found : outer.bind index.type? = some type) : index.type? type.fqn = some type := by
  obtain ⟨name, -, known⟩ := Option.bind_eq_some_iff.mp found
  exact type?_fqn known

theorem exists_type?_fqn {file : SourceFile} (indexed : file ∈ index.files) {type : TypeDeclaration}
    (declared : type ∈ file.types) : ∃ first, index.type? type.fqn = some first := by
  rw [← Option.isSome_iff_exists, type?_eq_map, Option.isSome_map, isSome_declaration?_iff]
  exact ⟨⟨file, type⟩, (mem_declarations index _).mpr ⟨indexed, declared⟩, rfl⟩

theorem hasType_iff {name : String} : index.hasType name ↔ ∃ type, index.type? name = some type := by
  rw [← Option.isSome_iff_exists, hasType_eq_isSome, type?_eq_map, Option.isSome_map]

section

variable (read : ∀ file ∈ index.files, file.IsParsed)

include read

theorem isNestedIn_of_outer {name around : String} {type : TypeDeclaration}
    (found : index.type? name = some type) (outer : type.outer = some around) :
    index.IsNestedIn name around := by
  obtain ⟨rfl, file, indexed, declared⟩ := type?_eq_some found
  have isRead := (read file indexed).isRead
  obtain ⟨other, inFile, rfl⟩ := isRead.exists_outer declared outer
  have qualified := (read file indexed).isQualified type declared
  rw [TypeDeclaration.IsQualified, outer] at qualified
  exact ⟨⟨type, found, outer⟩, hasType_iff.mpr (exists_type?_fqn indexed inFile), type.name,
    (isRead.types type declared).named, qualified⟩

theorem outer_eq_none {name : String} {type : TypeDeclaration} (found : index.type? name = some type)
    (last : type.outer.bind index.type? = none) : type.outer = none := by
  cases outer : type.outer with
  | none => rfl
  | some around =>
      obtain ⟨other, known⟩ := hasType_iff.mp (isNestedIn_of_outer read found outer).indexed
      rw [outer, Option.bind_some, known] at last
      cases last

end

theorem IsNestedIn.length_lt {name around : String} (inside : index.IsNestedIn name around) :
    around.length < name.length := by
  obtain ⟨last, -, rfl⟩ := inside.front
  exact Name.length_lt_member around last

theorem goesOutwards_enclosingWithin (read : ∀ file ∈ index.files, file.IsParsed) {limit : Nat} {name : String}
    (enough : name.length < limit) :
    index.GoesOutwards (index.type? name) (index.enclosingWithin limit name) := by
  induction limit generalizing name with
  | zero => omega
  | succ limit ih =>
      rw [enclosingWithin]
      cases found : index.type? name with
      | none => exact .outside
      | some type =>
          refine .inside ?_
          cases outer : type.outer with
          | none => exact .outside
          | some around =>
              -- The next name is shorter, so the limit is never what ends the way.
              have shorter := (isNestedIn_of_outer read found outer).length_lt
              exact ih (by omega)

namespace GoesOutwards

variable {current : Option TypeDeclaration} {names : List String}

theorem unique (way : index.GoesOutwards current names) {others : List String}
    (other : index.GoesOutwards current others) : others = names := by
  induction way generalizing others with
  | outside =>
      cases other
      rfl
  | inside _ ih =>
      obtain _ | further := other
      rw [ih further]

theorem head?_eq (way : index.GoesOutwards current names) : names.head? = current.map (·.fqn) := by
  cases way <;> rfl

theorem isChain (read : ∀ file ∈ index.files, file.IsParsed) (way : index.GoesOutwards current names)
    (indexed : ∀ type ∈ current, index.type? type.fqn = some type) :
    names.IsChain index.IsNestedIn := by
  induction way with
  | outside => exact .nil
  | @inside type names further ih =>
      have found := indexed type rfl
      refine List.isChain_cons.mpr ⟨fun next first => ?_, ih fun _ => type?_fqn_of_bind⟩
      rw [further.head?_eq] at first
      obtain ⟨other, outer, rfl⟩ := Option.map_eq_some_iff.mp first
      -- The next type may be another one than is declared around this one, but it has the same name.
      obtain ⟨around, declared, known⟩ := Option.bind_eq_some_iff.mp outer
      obtain rfl := (type?_eq_some known).1
      exact isNestedIn_of_outer read found declared

theorem outer_getLast? (read : ∀ file ∈ index.files, file.IsParsed) (way : index.GoesOutwards current names)
    (indexed : ∀ type ∈ current, index.type? type.fqn = some type) :
    ∀ last ∈ names.getLast?, ∃ type, index.type? last = some type ∧ type.outer = none := by
  induction way with
  | outside => exact nofun
  | @inside type names further ih =>
      intro last ends
      cases names with
      | nil =>
          obtain rfl : type.fqn = last := by simpa using ends
          have none : type.outer.bind index.type? = none := by simpa using further.head?_eq.symm
          exact ⟨type, indexed type rfl, outer_eq_none read (indexed type rfl) none⟩
      | cons next rest =>
          rw [List.getLast?_cons_cons] at ends
          exact ih (fun _ => type?_fqn_of_bind) last ends

end GoesOutwards

/-- In every index of files that have been read, the way outwards from a type of one of them ends. The names of
the enclosing types are those on it: first that of the type itself, then each time the name of the type that the
one before is declared in as it is indexed, and last that of a type that is declared in no other. -/
theorem enclosing_exact {index : SourceIndex} (read : ∀ file ∈ index.files, file.IsParsed)
    {file : SourceFile} (indexed : file ∈ index.files) {type : TypeDeclaration} (declared : type ∈ file.types) :
    let names := index.enclosing type
    (∀ way, index.GoesOutwards (index.type? type.fqn) way ↔ way = names) ∧
    names.head? = some type.fqn ∧
    names.IsChain index.IsNestedIn ∧
    ∃ last outermost, names.getLast? = some last ∧ index.type? last = some outermost ∧
      outermost.outer = none := by
  intro names
  have ends : index.GoesOutwards (index.type? type.fqn) names :=
    goesOutwards_enclosingWithin read (Nat.lt_succ_self _)
  obtain ⟨first, found⟩ := exists_type?_fqn indexed declared
  have start : ∀ other ∈ index.type? type.fqn, index.type? other.fqn = some other := fun _ => type?_fqn
  have head : names.head? = some type.fqn := by
    rw [ends.head?_eq, found, Option.map_some, (type?_eq_some found).1]
  have nonempty : names ≠ [] := by
    intro none
    rw [none] at head
    cases head
  obtain ⟨last, isLast⟩ := Option.isSome_iff_exists.mp (List.getLast?_isSome.mpr nonempty)
  obtain ⟨outermost, found, outer⟩ := ends.outer_getLast? read start last isLast
  exact ⟨fun way => ⟨ends.unique, fun same => same ▸ ends⟩, head, ends.isChain read start,
    last, outermost, isLast, found, outer⟩

def nestedApart : List SourceFile :=
  [("a/B.java", "package a; class B { class C { } }"),
    ("a/B/C.java", "package a.B; class C { class D { } }")].filterMap fun (path, text) =>
      (SourceFile.parse path text).toOption

theorem isParsed_of_mem_nestedApart {file : SourceFile} (member : file ∈ nestedApart) : file.IsParsed := by
  obtain ⟨source, -, found⟩ := List.mem_filterMap.mp member
  exact SourceFile.isParsed_of_parse (SourceFile.parse_of_toOption found)

theorem enclosing_exact_nestedApart :
    let index := ofFiles nestedApart
    let names := ["a.B.C.D", "a.B.C", "a.B"]
    (∀ file ∈ index.files, file.IsParsed) ∧
    ∃ file ∈ index.files, ∃ type ∈ file.types,
      file.types.map (fun type => (type.fqn, type.outer)) = [("a.B.C", none), ("a.B.C.D", some "a.B.C")] ∧
      type.fqn = "a.B.C.D" ∧ index.enclosing type = names ∧
      index.GoesOutwards (index.type? type.fqn) names := by
  intro index names
  have read : ∀ file ∈ index.files, file.IsParsed := fun file member =>
    isParsed_of_mem_nestedApart ((mem_files_ofFiles nestedApart file).mp member)
  obtain ⟨order, file, indexed, type, declared, types, named, enclosing⟩ :
      nestedApart.Pairwise (fun a b : SourceFile => decide (a.path ≤ b.path) = true) ∧
      ∃ file ∈ nestedApart, ∃ type ∈ file.types,
        file.types.map (fun type => (type.fqn, type.outer)) = [("a.B.C", none), ("a.B.C.D", some "a.B.C")] ∧
        type.fqn = "a.B.C.D" ∧ (SourceIndex.mk nestedApart).enclosing type = names := by
    decide +kernel
  have sorted : index = SourceIndex.mk nestedApart :=
    congrArg SourceIndex.mk (List.mergeSort_of_pairwise order)
  rw [← sorted] at enclosing
  have inIndex : file ∈ index.files := (mem_files_ofFiles nestedApart file).mpr indexed
  obtain ⟨ways, -⟩ := enclosing_exact read inIndex declared
  exact ⟨read, file, inIndex, type, declared, types, named, enclosing, (ways names).mpr enclosing.symm⟩

end SourceIndex

end CallContext
