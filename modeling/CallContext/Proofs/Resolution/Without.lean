import Mathlib.Data.Option.Basic
import CallContext.Proofs.Collection.Distinct
import CallContext.Proofs.Java.SourceFile
import CallContext.Proofs.Resolution.Candidates
import CallContext.Proofs.Resolution.TypeName
import CallContext.Proofs.Search.Limit

/-!
Two indexes, of which the small one is the large one without the types of some simple names, which no
file of the small one mentions. Whatever is looked up for such a file has a simple name that it
mentions, and so every lookup has the same answer in both.
-/

namespace CallContext

open Java Collection

namespace Name

def Avoids (hidden : List String) (name : String) : Prop :=
  ∀ segment ∈ segments name, segment ∉ hidden

structure IsClear (hidden : List String) (name : String) : Prop where
  plain : TypeText.IsPlain name
  avoids : Avoids hidden name

end Name

namespace SourceIndex

/-- The small index is the large one without the types of the hidden simple names, and its files mention
none of them. -/
structure Without (hidden : List String) (large small : SourceIndex) : Prop where
  declarations : small.declarations =
    large.declarations.filter fun place => Name.simpleName place.type.fqn ∉ hidden
  read : ∀ place ∈ large.declarations, place.file.IsRead
  avoids : ∀ file ∈ small.files, ∀ name ∈ file.mentioned, Name.Avoids hidden name

end SourceIndex

namespace Name

variable {hidden : List String}

theorem Avoids.simpleName {name : String} (avoids : Avoids hidden name) :
    Name.simpleName name ∉ hidden :=
  avoids _ (simpleName_mem_segments name)

theorem avoids_member {owner name : String} :
    Avoids hidden (member owner name) ↔ Avoids hidden owner ∧ Avoids hidden name := by
  simp only [Avoids, segments_member, List.mem_append, or_imp, forall_and]

theorem IsClear.member {owner name : String} (left : IsClear hidden owner) (right : IsClear hidden name) :
    IsClear hidden (Name.member owner name) :=
  ⟨TypeText.isPlain_member left.plain right.plain, avoids_member.mpr ⟨left.avoids, right.avoids⟩⟩

theorem Avoids.not_mem {name : String} (avoids : Avoids hidden name) (dotless : '.' ∉ name.toList) :
    name ∉ hidden :=
  avoids name (by rw [segments_of_not_mem dotless]; exact List.mem_singleton_self name)

end Name

namespace SourceIndex.Without

variable {hidden : List String} {large small : SourceIndex} (apart : Without hidden large small)

include apart

theorem subset {place : Declaration} (declared : place ∈ small.declarations) :
    place ∈ large.declarations := by
  rw [apart.declarations] at declared
  exact List.mem_of_mem_filter declared

theorem isRead {place : Declaration} (declared : place ∈ small.declarations) : place.file.IsRead :=
  apart.read place (apart.subset declared)

theorem isClear_mentioned {place : Declaration} (declared : place ∈ small.declarations) {name : String}
    (mentioned : name ∈ place.type.mentioned) : Name.IsClear hidden name := by
  obtain ⟨indexed, inFile⟩ := (mem_declarations small place).mp declared
  refine ⟨((apart.isRead declared).types place.type inFile).plain name mentioned, ?_⟩
  refine apart.avoids place.file indexed name (List.mem_append_right _ ?_)
  exact List.mem_flatMap.mpr ⟨place.type, inFile, mentioned⟩

theorem avoids_place {place : Declaration} (declared : place ∈ small.declarations) :
    Name.Avoids hidden place.type.fqn :=
  (apart.isClear_mentioned declared List.mem_cons_self).avoids

theorem avoids_fqn {fqn : String} (known : fqn ∈ small.typeNames) : Name.Avoids hidden fqn := by
  obtain ⟨place, declared, rfl⟩ := (small.mem_typeNames fqn).mp known
  exact apart.avoids_place declared

theorem avoids_path {place : Declaration} (declared : place ∈ small.declarations)
    {found : ImportSyntax} (imported : found ∈ place.file.imports) : Name.Avoids hidden found.path := by
  have indexed := ((mem_declarations small place).mp declared).1
  exact apart.avoids place.file indexed found.path
    (List.mem_append_left _ (List.mem_map_of_mem imported))

theorem declaration?_eq {fqn : String} (shown : Name.simpleName fqn ∉ hidden) :
    large.declaration? fqn = small.declaration? fqn := by
  rw [declaration?_eq_find?, declaration?_eq_find?, apart.declarations, List.find?_filter]
  congr 1
  funext place
  by_cases same : place.type.fqn = fqn
  · simp [same, shown]
  · simp [same]

theorem type?_eq {fqn : String} (shown : Name.simpleName fqn ∉ hidden) :
    large.type? fqn = small.type? fqn := by
  rw [type?_eq_map, type?_eq_map, apart.declaration?_eq shown]

theorem known?_eq {fqn : String} (shown : Name.simpleName fqn ∉ hidden) :
    large.known? fqn = small.known? fqn := by
  rw [known?, known?, apart.type?_eq shown]

theorem typeNames_eq :
    small.typeNames = large.typeNames.filter fun fqn => Name.simpleName fqn ∉ hidden := by
  rw [typeNames, typeNames, apart.declarations, ← eraseDups_filter, List.filter_map]
  rfl

theorem length_typeNames_le : small.typeNames.length ≤ large.typeNames.length := by
  rw [apart.typeNames_eq]
  exact List.length_filter_le _ _

theorem name_of_type? {fqn : String} {type : TypeDeclaration} (found : large.type? fqn = some type) :
    type.name = Name.simpleName fqn := by
  obtain ⟨rfl, file, indexed, inFile⟩ := type?_eq_some found
  have read := apart.read ⟨file, type⟩ ((mem_declarations large _).mpr ⟨indexed, inFile⟩)
  exact (read.types type inFile).simpleName.symm

theorem typesNamed_eq {name : String} (shown : name ∉ hidden) :
    large.typesNamed name = small.typesNamed name := by
  rw [typesNamed_eq_filter, typesNamed_eq_filter, apart.typeNames_eq, List.filter_filter]
  refine List.filter_congr fun fqn _ => ?_
  by_cases visible : Name.simpleName fqn ∉ hidden
  · rw [apart.type?_eq visible]
    simp [visible]
  · -- A type of a hidden name has another name.
    cases found : large.type? fqn with
    | none => simp [visible]
    | some type =>
        have other : type.name ≠ name := by
          rw [apart.name_of_type? found]
          rintro rfl
          exact visible shown
        simp [visible, other]

theorem onDemand_eq (file : SourceFile) {name : String} (shown : name ∉ hidden) :
    large.onDemand file name = small.onDemand file name := by
  rw [onDemand, onDemand, apart.typesNamed_eq shown]

theorem enclosingWithin_eq (limit : Nat) {fqn : String} (avoids : Name.Avoids hidden fqn) :
    large.enclosingWithin limit fqn = small.enclosingWithin limit fqn := by
  induction limit generalizing fqn with
  | zero => rfl
  | succ limit ih =>
      rw [enclosingWithin, enclosingWithin, apart.type?_eq avoids.simpleName]
      cases found : small.type? fqn with
      | none => rfl
      | some type =>
          cases outer : type.outer with
          | none => simp only [outer]
          | some name =>
              rw [type?_eq_map] at found
              obtain ⟨place, declared, rfl⟩ := Option.map_eq_some_iff.mp found
              have member := declaration?_mem declared
              obtain ⟨indexed, inFile⟩ := (mem_declarations small place).mp member
              obtain ⟨around, inFile, rfl⟩ := (apart.isRead member).exists_outer inFile outer
              have further : ⟨place.file, around⟩ ∈ small.declarations :=
                (mem_declarations small _).mpr ⟨indexed, inFile⟩
              simp only [outer, ih (apart.avoids_place further)]

theorem enclosing_eq {type : TypeDeclaration} (avoids : Name.Avoids hidden type.fqn) :
    large.enclosing type = small.enclosing type :=
  apart.enclosingWithin_eq _ avoids

theorem ownersAround_eq {place : Declaration} (declared : place ∈ small.declarations) :
    large.ownersAround (some place.type) = small.ownersAround (some place.type) :=
  apart.enclosing_eq (apart.avoids_place declared)

theorem amongEnclosing_eq (owners : List String) {name : String}
    (shown : Name.simpleName name ∉ hidden) :
    large.amongEnclosing owners name = small.amongEnclosing owners name := by
  have known (owner : String) :
      large.known? (Name.member owner name) = small.known? (Name.member owner name) :=
    apart.known?_eq (by rwa [Name.simpleName_member])
  simp only [amongEnclosing, known]

theorem path_of_singleImport? {place : Declaration} (declared : place ∈ small.declarations)
    {name : String} {found : ImportSyntax} (imported : singleImport? place.file name = some found) :
    Name.Avoids hidden found.path :=
  apart.avoids_path declared (List.mem_of_find?_eq_some imported)

theorem resolveSimple_eq_of_package {place : Declaration} (declared : place ∈ small.declarations)
    {name : String} (shown : name ∉ hidden) (simple : Name.simpleName name ∉ hidden)
    (here : Name.simpleName (Name.join '.' [place.file.package, name]) ∉ hidden) :
    large.resolveSimple place.file (some place.type) name =
      small.resolveSimple place.file (some place.type) name := by
  have outside : large.resolveOutside place.file name = small.resolveOutside place.file name := by
    unfold resolveOutside
    cases imported : singleImport? place.file name with
    | some found =>
        exact apart.known?_eq (apart.path_of_singleImport? declared imported).simpleName
    | none => simp only [apart.known?_eq here, apart.onDemand_eq place.file shown]
  rw [resolveSimple_eq_or, resolveSimple_eq_or, apart.ownersAround_eq declared,
    apart.amongEnclosing_eq _ simple, outside]

theorem resolveSimple_eq {place : Declaration} (declared : place ∈ small.declarations) {name : String}
    (some : name ≠ "") (dotless : '.' ∉ name.toList) (avoids : Name.Avoids hidden name) :
    large.resolveSimple place.file (.some place.type) name =
      small.resolveSimple place.file (.some place.type) name := by
  refine apart.resolveSimple_eq_of_package declared (avoids.not_mem dotless) avoids.simpleName ?_
  rw [Name.simpleName_join_pair _ some]
  exact avoids.simpleName

theorem known?_eq_none {fqn : String} (mentions : ¬ Name.Avoids hidden fqn) :
    small.known? fqn = none := by
  cases known : small.known? fqn with
  | none => rfl
  | some found =>
      obtain ⟨rfl, member⟩ := known?_eq_some known
      exact absurd (apart.avoids_fqn member) mentions

theorem typesNamed_empty : small.typesNamed "" = [] := by
  rw [typesNamed_eq_filter]
  refine List.filter_eq_nil_iff.mpr fun fqn _ => ?_
  cases found : small.type? fqn with
  | none => simp
  | some type =>
      obtain ⟨-, file, indexed, inFile⟩ := type?_eq_some found
      have read := apart.isRead ((mem_declarations small ⟨file, type⟩).mpr ⟨indexed, inFile⟩)
      simpa using (read.types type inFile).named

/-- The empty name before a dot can mean the package, if a hidden type has that name, but then nothing
visible is a member of it. -/
theorem bind_resolveOutside_empty {place : Declaration} (declared : place ∈ small.declarations)
    (shown : "" ∉ hidden) (rest : String)
    (package : ¬ Name.Avoids hidden (Name.join '.' [place.file.package, ""])) :
    ((large.resolveOutside place.file "").bind fun owner => small.known? (Name.member owner rest)) =
      (small.resolveOutside place.file "").bind fun owner => small.known? (Name.member owner rest) := by
  unfold resolveOutside
  cases imported : singleImport? place.file "" with
  | some found =>
      have path := (apart.path_of_singleImport? declared imported).simpleName
      simp only [apart.known?_eq path]
  | none =>
      have demanded : small.onDemand place.file "" = none := by
        rw [onDemand, apart.typesNamed_empty]
        rfl
      simp only [apart.known?_eq_none package, apart.onDemand_eq place.file shown, demanded,
        Option.or_none, Option.bind_none]
      cases known : large.known? (Name.join '.' [place.file.package, ""]) with
      | none => rfl
      | some owner =>
          obtain ⟨rfl, -⟩ := known?_eq_some known
          exact apart.known?_eq_none fun avoids => package (Name.avoids_member.mp avoids).1

theorem bind_resolveSimple_eq {place : Declaration} (declared : place ∈ small.declarations)
    {head rest : String} (dotless : '.' ∉ head.toList) (before : Name.Avoids hidden head)
    (after : Name.Avoids hidden rest) :
    ((large.resolveSimple place.file (some place.type) head).bind fun owner =>
        large.known? (Name.member owner rest)) =
      (small.resolveSimple place.file (some place.type) head).bind fun owner =>
        small.known? (Name.member owner rest) := by
  have members (owner : String) :
      large.known? (Name.member owner rest) = small.known? (Name.member owner rest) := by
    apply apart.known?_eq
    rw [Name.simpleName_member]
    exact after.simpleName
  have shown := before.not_mem dotless
  simp only [members]
  by_cases here : Name.simpleName (Name.join '.' [place.file.package, head]) ∉ hidden
  · rw [apart.resolveSimple_eq_of_package declared shown before.simpleName here]
  · have empty : head = "" := by
      -- Any other head would be the simple name itself.
      by_contra some
      rw [Name.simpleName_join_pair _ some] at here
      exact here before.simpleName
    subst empty
    have outside :=
      apart.bind_resolveOutside_empty declared shown rest fun avoids => here avoids.simpleName
    rw [resolveSimple_eq_or, resolveSimple_eq_or, apart.ownersAround_eq declared,
      apart.amongEnclosing_eq _ before.simpleName]
    cases small.amongEnclosing (small.ownersAround (some place.type)) "" with
    | some owner => rfl
    | none => exact outside

theorem resolveType_eq {place : Declaration} (declared : place ∈ small.declarations) {written : String}
    (clear : Name.IsClear hidden written) :
    large.resolveType place.file (some place.type) written =
      small.resolveType place.file (some place.type) written := by
  simp only [resolveType, TypeText.erase_of_isPlain clear.plain]
  split_ifs with unowned
  · rfl
  · cases cut : Name.splitHead written with
    | none =>
        refine apart.resolveSimple_eq declared ?_ (Name.splitHead_eq_none cut) clear.avoids
        rintro rfl
        exact unowned rfl
    | some parts =>
        obtain ⟨head, rest⟩ := parts
        obtain ⟨rfl, dotless⟩ := Name.splitHead_eq_some cut
        obtain ⟨before, after⟩ := Name.avoids_member.mp clear.avoids
        simp only [apart.bind_resolveSimple_eq declared dotless before after,
          apart.known?_eq clear.avoids.simpleName]

end SourceIndex.Without

end CallContext
