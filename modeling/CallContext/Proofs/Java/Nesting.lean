import CallContext.Proofs.Java.Origin.TypeNames

/-!
How the declared types of a source file follow one another. They are the nodes of a forest, each before
those below it, and the forest is that of the declarations in the source: a type stands below the type that
it is declared in, and the types declared in one type stand in the order in which they are declared. So a
type that is declared in another one comes after it, with nothing but types declared in that one between
the two.
-/

namespace CallContext

namespace Name

theorem member_assoc (owner name last : String) :
    member (member owner name) last = member owner (member name last) := by
  simp only [member, String.append_assoc]

theorem member_ne_self (owner name : String) : member owner name ≠ owner := by
  intro same
  have lengths := congrArg (fun text => text.toList.length) same
  simp [toList_member] at lengths

end Name

namespace Java

inductive TypeTree where
  | mk (type : TypeDeclaration) (nested : List TypeTree)

namespace TypeTree

def types : TypeTree → List TypeDeclaration
  | ⟨type, nested⟩ => type :: nested.flatMap types

theorem types_mk (type : TypeDeclaration) (nested : List TypeTree) :
    types ⟨type, nested⟩ = type :: nested.flatMap types := by
  rw [types]

end TypeTree

/-- The qualified name of a type is its name after that of the type around it. Without a type around it
there may be some other qualifier or none. -/
def TypeDeclaration.IsQualified (type : TypeDeclaration) : Prop :=
  match type.outer with
  | some around => type.fqn = Name.member around type.name
  | none => type.fqn = type.name ∨ ∃ qualifier, type.fqn = Name.member qualifier type.name

/-- The trees are those of the types that some members declare, in order, and so on for the members of each
type. The types are declared in the given one, if there is one. -/
inductive AreDeclared : Option String → List Member → List TypeTree → Prop
  | nil {outer : Option String} : AreDeclared outer [] []
  | type {outer : Option String} {heading : TypeHeading} {members rest : List Member}
      {type : TypeDeclaration} {nested trees : List TypeTree}
      (named : type.name = heading.name.text) (kind : type.kind = heading.kind)
      (within : type.outer = outer) (qualified : type.IsQualified)
      (inside : AreDeclared (some type.fqn) members nested) (later : AreDeclared outer rest trees) :
      AreDeclared outer (.type heading members :: rest) (⟨type, nested⟩ :: trees)
  | other {outer : Option String} {member : Member} {rest : List Member} {trees : List TypeTree}
      (noType : ∀ heading members, member ≠ .type heading members)
      (later : AreDeclared outer rest trees) : AreDeclared outer (member :: rest) trees

namespace AreDeclared

variable {outer : Option String} {members others : List Member} {trees more : List TypeTree}

theorem append (first : AreDeclared outer members trees) (second : AreDeclared outer others more) :
    AreDeclared outer (members ++ others) (trees ++ more) := by
  induction first with
  | nil => exact second
  | type named kind within qualified inside _ _ ih =>
      exact .type named kind within qualified inside (ih second)
  | other noType _ ih => exact .other noType (ih second)

theorem isQualified (declared : AreDeclared outer members trees) :
    ∀ type ∈ trees.flatMap TypeTree.types, type.IsQualified := by
  induction declared with
  | nil => simp
  | type _ _ _ qualified _ _ inside later =>
      intro type listed
      rw [List.flatMap_cons, TypeTree.types_mk] at listed
      rcases List.mem_append.mp listed with own | after
      · rcases List.mem_cons.mp own with rfl | deeper
        · exact qualified
        · exact inside type deeper
      · exact later type after
  | other _ _ later => exact later

end AreDeclared

theorem isQualified_toType (heading : TypeHeading) (members : List Member) {qualifier : String}
    {outer : Option String} (scope : ∀ around ∈ outer, around = qualifier ∧ qualifier ≠ "") :
    (heading.toType members qualifier outer).IsQualified := by
  have joined := Name.join_pair qualifier heading.name.text
  rw [if_neg heading.name.text_ne_empty] at joined
  cases outer with
  | none =>
      simp only [TypeDeclaration.IsQualified, TypeHeading.toType, joined]
      split_ifs
      · exact .inl rfl
      · exact .inr ⟨qualifier, rfl⟩
  | some around =>
      obtain ⟨rfl, nonempty⟩ := scope around rfl
      simp only [TypeDeclaration.IsQualified, TypeHeading.toType, joined, if_neg nonempty]

theorem fqn_toType_ne_empty (heading : TypeHeading) (members : List Member) (qualifier : String)
    (outer : Option String) : (heading.toType members qualifier outer).fqn ≠ "" := by
  rw [TypeHeading.toType, Name.join_pair, if_neg heading.name.text_ne_empty]
  split_ifs
  · exact heading.name.text_ne_empty
  · simp [Name.member]

theorem Member.exists_areDeclared {qualifier : String} {outer : Option String}
    (scope : ∀ around ∈ outer, around = qualifier ∧ qualifier ≠ "") (members : List Member) :
    ∃ trees, AreDeclared outer members trees ∧
      typesOf qualifier outer members = trees.flatMap TypeTree.types := by
  match members with
  | [] => exact ⟨[], .nil, rfl⟩
  | member :: rest =>
      obtain ⟨trees, later, laterTypes⟩ := Member.exists_areDeclared scope rest
      cases member with
      | type heading inner =>
          have own := isQualified_toType heading inner scope
          have innerScope : ∀ around ∈ some (heading.toType inner qualifier outer).fqn,
              around = (heading.toType inner qualifier outer).fqn ∧
                (heading.toType inner qualifier outer).fqn ≠ "" := by
            simpa using fqn_toType_ne_empty heading inner qualifier outer
          obtain ⟨nested, inside, insideTypes⟩ := Member.exists_areDeclared innerScope inner
          refine ⟨⟨_, nested⟩ :: trees, .type rfl rfl rfl own inside later, ?_⟩
          rw [typesOf, types, laterTypes, insideTypes, List.flatMap_cons, TypeTree.types_mk]
      | fields | method | other =>
          exact ⟨trees, .other (by simp) later, by rw [typesOf, types, laterTypes, List.nil_append]⟩

/-- A type is declared in the given one, or in one that stands before it with only types declared in that
one between the two. -/
def ArePlaced (outer : Option String) (types : List TypeDeclaration) : Prop :=
  ∀ before type after, types = before ++ type :: after → type.outer = outer ∨
    ∃ front around between, before = front ++ around :: between ∧ type.outer = some around.fqn ∧
      ∀ inner ∈ between, ∃ name, inner.fqn = Name.member around.fqn name

namespace ArePlaced

variable {outer : Option String} {types others : List TypeDeclaration}

theorem append (first : ArePlaced outer types) (second : ArePlaced outer others) :
    ArePlaced outer (types ++ others) := by
  intro before type after split
  rcases List.append_eq_append_iff.mp split with ⟨between, rfl, rest⟩ | ⟨between, rfl, rest⟩
  · rcases second between type after rest with own | ⟨front, around, inner, rfl, found⟩
    · exact .inl own
    · exact .inr ⟨types ++ front, around, inner, by simp, found⟩
  · cases between with
    | nil =>
        rcases second [] type after rest.symm with own | ⟨front, around, inner, none, -⟩
        · exact .inl own
        · cases front <;> cases none
    | cons head between =>
        obtain ⟨rfl, rfl⟩ := List.cons.inj rest
        exact first before type between rfl

theorem cons {type : TypeDeclaration} (within : type.outer = outer)
    (nested : ArePlaced (some type.fqn) types)
    (inside : ∀ inner ∈ types, ∃ name, inner.fqn = Name.member type.fqn name) :
    ArePlaced outer (type :: types) := by
  intro before other after split
  cases before with
  | nil =>
      obtain ⟨rfl, -⟩ := List.cons.inj split
      exact .inl within
  | cons head before =>
      obtain ⟨rfl, rest⟩ := List.cons.inj split
      right
      rcases nested before other after rest with own | ⟨front, around, between, rfl, found⟩
      · refine ⟨[], type, before, rfl, own, fun inner listed => inside inner ?_⟩
        rw [rest]
        exact List.mem_append_left _ listed
      · exact ⟨type :: front, around, between, rfl, found⟩

end ArePlaced

namespace AreDeclared

variable {outer : Option String} {members : List Member} {trees : List TypeTree}

theorem qualified_under (declared : AreDeclared outer members trees) :
    ∀ around ∈ outer, ∀ type ∈ trees.flatMap TypeTree.types,
      ∃ name, type.fqn = Name.member around name := by
  induction declared with
  | nil => simp
  | @type outer heading members rest type nested trees _ _ within qualified _ _ inside later =>
      intro around isOuter other listed
      have own : type.fqn = Name.member around type.name := by
        rw [TypeDeclaration.IsQualified, within, isOuter] at qualified
        exact qualified
      rw [List.flatMap_cons, TypeTree.types_mk] at listed
      rcases List.mem_append.mp listed with here | after
      · rcases List.mem_cons.mp here with rfl | deeper
        · exact ⟨_, own⟩
        · obtain ⟨name, same⟩ := inside type.fqn rfl other deeper
          exact ⟨_, by rw [same, own, Name.member_assoc]⟩
      · exact later around isOuter other after
  | other _ _ later => exact later

theorem arePlaced (declared : AreDeclared outer members trees) :
    ArePlaced outer (trees.flatMap TypeTree.types) := by
  induction declared with
  | nil =>
      intro before type after split
      cases before <;> cases split
  | type _ _ within _ nested _ inside later =>
      rw [List.flatMap_cons, TypeTree.types_mk]
      exact (inside.cons within (nested.qualified_under _ rfl)).append later
  | other _ _ later => exact later

end AreDeclared

namespace Item

def member? : Item → Option Member
  | .member declaration => some declaration
  | .package _ | .imports _ | .code _ => none

theorem exists_areDeclared (qualifier : String) (items : List Item) :
    ∃ trees, AreDeclared none (items.filterMap member?) trees ∧
      types qualifier items = trees.flatMap TypeTree.types := by
  induction items generalizing qualifier with
  | nil => exact ⟨[], .nil, rfl⟩
  | cons item rest ih =>
      cases item with
      | package name => exact ih _
      | imports _ | code _ => exact ih qualifier
      | member declaration =>
          obtain ⟨trees, later, laterTypes⟩ := ih qualifier
          have scope : ∀ around ∈ (none : Option String), around = qualifier ∧ qualifier ≠ "" := by simp
          obtain ⟨first, own, ownTypes⟩ := Member.exists_areDeclared scope [declaration]
          refine ⟨first ++ trees, own.append later, ?_⟩
          rw [types, laterTypes, List.flatMap_append, ← ownTypes, Member.typesOf, Member.typesOf,
            List.append_nil]

end Item

namespace SourceFile

/-- The types of a source file are the nodes of the forest of its declarations, each before those below it,
and in the order in which their names stand in the text. Each has the name that its place in the forest
gives it. A type that is declared in another one comes after that one, and only types declared in that one,
which have other names, stand between them. -/
theorem types_of_parse {path content : String} {file : SourceFile}
    (parsed : parse path content = .ok file) :
    ∃ items trees, parseSource content = .ok items ∧
      AreDeclared none (items.filterMap Item.member?) trees ∧
      file.types = trees.flatMap TypeTree.types ∧
      (file.types.map (·.name)).Sublist ((Lexer.tokens content.toList).map (·.text)) ∧
      ∀ before type after, file.types = before ++ type :: after →
        type.IsQualified ∧
        ∀ outer, type.outer = some outer →
          ∃ front around between, before = front ++ around :: between ∧ around.fqn = outer ∧
            ∀ inner ∈ between, inner.fqn ≠ outer ∧ ∃ name, inner.fqn = Name.member outer name := by
  have ordered := sublist_names parsed
  obtain ⟨items, read, rfl⟩ := parse_eq_ok_iff.mp parsed
  obtain ⟨trees, declared, types⟩ := Item.exists_areDeclared "" items
  refine ⟨items, trees, read, declared, types, ordered, fun before type after split => ?_⟩
  replace split : trees.flatMap TypeTree.types = before ++ type :: after := types.symm.trans split
  refine ⟨declared.isQualified type (by simp [split]), fun outer isOuter => ?_⟩
  rcases declared.arePlaced before type after split with
    outermost | ⟨front, around, between, same, own, inside⟩
  · rw [outermost] at isOuter
    cases isOuter
  · obtain rfl : around.fqn = outer := Option.some.inj (own.symm.trans isOuter)
    refine ⟨front, around, between, same, rfl, fun inner listed => ?_⟩
    obtain ⟨name, qualified⟩ := inside inner listed
    exact ⟨qualified ▸ Name.member_ne_self _ _, name, qualified⟩

def nestedText : String :=
  "package p;\nclass A \x7b\n  enum B \x7b X; interface C \x7b\x7d \x7d\n  record D() \x7b\x7d\n\x7d\n" ++
    "class E \x7b\x7d\n"

def nestedTypes : List (String × Option String) :=
  [("p.A", none), ("p.A.B", some "p.A"), ("p.A.B.C", some "p.A.B"), ("p.A.D", some "p.A"), ("p.E", none)]

theorem types_of_parse_nested : ∃ file items trees, parse "A.java" nestedText = .ok file ∧
    file.types.map (fun type => (type.fqn, type.outer)) = nestedTypes ∧
    parseSource nestedText = .ok items ∧ AreDeclared none (items.filterMap Item.member?) trees ∧
    file.types = trees.flatMap TypeTree.types := by
  have reads : (parse "A.java" nestedText).toOption.map
      (fun file => file.types.map fun type => (type.fqn, type.outer)) = some nestedTypes := by
    decide +kernel
  obtain ⟨file, found, shown⟩ := Option.map_eq_some_iff.mp reads
  have parsed := eq_ok_of_toOption found
  obtain ⟨items, trees, read, declared, types, -⟩ := types_of_parse parsed
  exact ⟨file, items, trees, parsed, shown, read, declared, types⟩

end SourceFile

end Java

end CallContext
