import CallContext.Proofs.Resolution.Candidates
import CallContext.Proofs.Resolution.TypeName
import CallContext.Proofs.Search.Worklist

/-!
What a type inherits. The types above a type are those that its written supertypes mean, and those above
them, however they go around. Members are found in the nearest type that declares any of the name, and in
none only if no type above declares one.
-/

namespace CallContext.SourceIndex

open Java Relation Search

variable (index : SourceIndex)

def DirectlyAbove (fqn above : String) : Prop :=
  ∃ place, index.declaration? fqn = some place ∧
    ∃ written ∈ place.type.supertypes, index.resolveType place.file (some place.type) written = some above

theorem adjacent_parents : Adjacent index.parents = index.DirectlyAbove := by
  funext fqn above
  rw [Adjacent, DirectlyAbove, parents]
  cases index.declaration? fqn with
  | none => simp
  | some place => simp [supertypesOf]

def IsAbove (owner : String) (place : Declaration) : Prop :=
  ∃ fqn, index.declaration? fqn = some place ∧ ReflTransGen index.DirectlyAbove owner fqn

/-- Whether no declaration of its kind is fewer steps above a type. -/
structure IsNearest (owner : String) (declares : TypeDeclaration → Prop) (place : Declaration) : Prop where
  member : declares place.type
  fewest : ∃ fqn steps, index.declaration? fqn = some place ∧
    Walk index.DirectlyAbove steps owner fqn ∧
    ∀ other n around, Walk index.DirectlyAbove n owner other → index.declaration? other = some around →
      declares around.type → steps ≤ n

def upwards (owner : String) : List String :=
  owner :: reached index.parents index.typeNames.length [owner]

theorem hierarchy_eq_filterMap (owner : String) :
    index.hierarchy owner = (index.upwards owner).filterMap index.declaration? :=
  rfl

theorem mem_upwards {owner fqn : String} :
    fqn ∈ index.upwards owner ↔ ReflTransGen index.DirectlyAbove owner fqn := by
  rw [upwards, List.mem_cons, ← exists_walk_iff]
  constructor
  · rintro (rfl | found)
    · exact ⟨0, .refl fqn⟩
    · obtain ⟨-, start, given, n, -, walk⟩ := (mem_reached _ _ _ fqn).mp found
      obtain rfl := List.mem_singleton.mp given
      exact ⟨n, index.adjacent_parents ▸ walk⟩
  · rintro ⟨n, walk⟩
    by_cases itself : fqn = owner
    · exact .inl itself
    · right
      rw [← reached_of_le parents_subset le_rfl (Nat.le_add_right index.typeNames.length n), mem_reached,
        adjacent_parents]
      exact ⟨fun given => itself (List.mem_singleton.mp given), owner, List.mem_singleton_self owner, n,
        Nat.le_add_left n _, walk⟩

theorem pairwise_upwards (owner : String) :
    (index.upwards owner).Pairwise fun before after => ∃ m n,
      IsDistance index.DirectlyAbove [owner] m before ∧
        IsDistance index.DirectlyAbove [owner] n after ∧ m ≤ n := by
  have sorted := reached_sorted index.parents index.typeNames.length [owner]
  rw [adjacent_parents] at sorted
  refine List.pairwise_cons.mpr ⟨fun fqn found => ?_, sorted⟩
  have within := ((mem_reached _ _ _ fqn).mp found).2
  rw [adjacent_parents] at within
  obtain ⟨n, -, distance⟩ := within.exists_isDistance
  exact ⟨0, n, isDistance_zero_iff.mpr (List.mem_singleton_self owner), distance, Nat.zero_le n⟩

variable {index}

theorem find?_hierarchy_eq_none_iff (index : SourceIndex) (owner : String) (p : TypeDeclaration → Bool) :
    (index.hierarchy owner).find? (fun place => p place.type) = none ↔
      ∀ place, index.IsAbove owner place → ¬ p place.type := by
  rw [List.find?_eq_none]
  refine forall_congr' fun place => ?_
  have above : place ∈ index.hierarchy owner ↔ index.IsAbove owner place := by
    rw [hierarchy_eq_filterMap, List.mem_filterMap]
    exact exists_congr fun fqn => by rw [mem_upwards, and_comm]
  rw [above]

theorem isNearest_of_find?_hierarchy {owner : String} (p : TypeDeclaration → Bool) {place : Declaration}
    (found : (index.hierarchy owner).find? (fun place => p place.type) = some place) :
    index.IsNearest owner (fun type => p type) place := by
  refine ⟨by simpa using List.find?_some found, ?_⟩
  rw [hierarchy_eq_filterMap, List.find?_filterMap, Option.bind_eq_some_iff] at found
  obtain ⟨fqn, first, declared⟩ := found
  obtain ⟨-, before, after, split, none⟩ := List.find?_eq_some_iff_append.mp first
  have reachable : fqn ∈ index.upwards owner := by simp [split]
  obtain ⟨n, walk⟩ := exists_walk_iff.mpr (index.mem_upwards.mp reachable)
  have within : Within index.DirectlyAbove [owner] n fqn :=
    ⟨owner, List.mem_singleton_self owner, n, le_rfl, walk⟩
  obtain ⟨steps, -, distance⟩ := within.exists_isDistance
  refine ⟨fqn, steps, declared, distance.walk, fun other m around way known declares => ?_⟩
  have member : other ∈ before ++ fqn :: after := by
    rw [← split, mem_upwards, ← exists_walk_iff]
    exact ⟨m, way⟩
  have sorted := index.pairwise_upwards owner
  rw [split, List.pairwise_append, List.pairwise_cons] at sorted
  rcases List.mem_append.mp member with earlier | later
  · have unlike := none other earlier
    simp [known, declares] at unlike
  · rcases List.mem_cons.mp later with rfl | later
    · exact distance.le_of_walk way
    · obtain ⟨m', n', here, there, le⟩ := sorted.2.1.1 other later
      rw [distance.unique here]
      exact le.trans (there.le_of_walk way)

theorem methodsNamed_eq_find? (owner name : String) : index.methodsNamed owner name =
    (((index.hierarchy owner).find? fun place => !(ownMethods name place.type).isEmpty).map
      fun place => ownMethods name place.type).getD [] := by
  rw [methodsNamed, List.find?_map]
  rfl

theorem methodsNamed_eq_nil_iff {owner name : String} : index.methodsNamed owner name = [] ↔
    (index.hierarchy owner).find? (fun place => !(ownMethods name place.type).isEmpty) = none := by
  rw [methodsNamed_eq_find?]
  cases found : (index.hierarchy owner).find? fun place => !(ownMethods name place.type).isEmpty with
  | none => simp
  | some place =>
      have some := List.find?_some found
      simpa using some

theorem findSome?_eq_bind_find? {α β : Type} (f : α → Option β) (items : List α) :
    items.findSome? f = (items.find? fun item => (f item).isSome).bind f := by
  induction items with
  | nil => rfl
  | cons item rest ih =>
      cases found : f item with
      | none => simp [found, ih]
      | some image => simp [found]

theorem fieldType_eq_find? (owner name : String) : index.fieldType owner name =
    ((index.hierarchy owner).find? fun place => (place.type.fields.get? name).isSome).bind fun place =>
      (place.type.fields.get? name).map fun written =>
        index.resolveType place.file (some place.type) written := by
  rw [fieldType, findSome?_eq_bind_find?]
  simp only [Option.isSome_map]

theorem ownMethods_isEmpty (name : String) (type : TypeDeclaration) :
    (!(ownMethods name type).isEmpty) = true ↔ ∃ method ∈ type.methods, method.name = name := by
  simp [ownMethods, List.isEmpty_eq_false_iff]

theorem fieldType_eq_none_iff {owner name : String} : index.fieldType owner name = none ↔
    (index.hierarchy owner).find? (fun place => (place.type.fields.get? name).isSome) = none := by
  rw [fieldType_eq_find?]
  cases found : (index.hierarchy owner).find? fun place => (place.type.fields.get? name).isSome with
  | none => simp
  | some place =>
      have some := List.find?_some found
      simpa [Option.isSome_iff_ne_none] using some

/-- Methods and fields are looked up in the nearest type that declares any of the name, and there are none
only if no type above declares one. The types are those that a search with a queue visits, which ends
whatever the hierarchy is. -/
theorem nearest_members (index : SourceIndex) (owner name : String) :
    let declares (type : TypeDeclaration) := ∃ method ∈ type.methods, method.name = name
    let has (type : TypeDeclaration) := (type.fields.get? name).isSome = true
    (∃ visited, (∀ run, Visits index.parents [owner] [] run ↔ run = visited) ∧
      index.hierarchy owner = visited.filterMap index.declaration?) ∧
    (index.methodsNamed owner name = [] ↔
      ∀ place, index.IsAbove owner place → ¬ declares place.type) ∧
    (index.methodsNamed owner name = [] ∨ ∃ place, index.IsNearest owner declares place ∧
      index.methodsNamed owner name = ownMethods name place.type) ∧
    (index.fieldType owner name = none ↔ ∀ place, index.IsAbove owner place → ¬ has place.type) ∧
    (index.fieldType owner name = none ∨ ∃ place written, index.IsNearest owner has place ∧
      place.type.fields.get? name = some written ∧
      index.fieldType owner name = some (index.resolveType place.file (some place.type) written)) := by
  intro declares has
  refine ⟨⟨index.upwards owner, visits_iff parents_subset le_rfl owner, rfl⟩, ?_, ?_, ?_, ?_⟩
  · have none := find?_hierarchy_eq_none_iff index owner fun type => !(ownMethods name type).isEmpty
    simpa only [methodsNamed_eq_nil_iff, ownMethods_isEmpty] using none
  · cases found : (index.hierarchy owner).find? fun place => !(ownMethods name place.type).isEmpty with
    | none => exact .inl (methodsNamed_eq_nil_iff.mpr found)
    | some place =>
        have nearest := isNearest_of_find?_hierarchy (fun type => !(ownMethods name type).isEmpty) found
        simp only [ownMethods_isEmpty] at nearest
        refine .inr ⟨place, nearest, ?_⟩
        rw [methodsNamed_eq_find?, found, Option.map_some, Option.getD_some]
  · have none := find?_hierarchy_eq_none_iff index owner fun type => (type.fields.get? name).isSome
    rwa [← fieldType_eq_none_iff] at none
  · cases found : (index.hierarchy owner).find? fun place => (place.type.fields.get? name).isSome with
    | none => exact .inl (fieldType_eq_none_iff.mpr found)
    | some place =>
        have nearest := isNearest_of_find?_hierarchy (fun type => (type.fields.get? name).isSome) found
        obtain ⟨written, declared⟩ := Option.isSome_iff_exists.mp nearest.member
        refine .inr ⟨place, written, nearest, declared, ?_⟩
        rw [fieldType_eq_find?, found, Option.bind_some, declared, Option.map_some]

end CallContext.SourceIndex
