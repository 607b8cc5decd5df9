import CallContext.Proofs.Index

/-!
What a call can mean. Whatever the receiver is, the candidates of a call are either none at all or all
the methods of one indexed type that have the name of the call. A target names some of them.
-/

namespace CallContext

open Java

namespace SourceIndex

def IsOverloadSet (index : SourceIndex) (name : String) (found : List OwnedMethod) : Prop :=
  found = [] ∨ ∃ place ∈ index.declarations, found = ownMethods name place.type

theorem mem_ownMethods (name : String) (type : TypeDeclaration) (found : OwnedMethod) :
    found ∈ ownMethods name type ↔
      found.owner = type.fqn ∧ found.method ∈ type.methods ∧ found.method.name = name := by
  obtain ⟨owner, method⟩ := found
  simp only [ownMethods, List.mem_map, List.mem_filter, beq_iff_eq, OwnedMethod.mk.injEq]
  constructor
  · rintro ⟨_, ⟨declared, named⟩, rfl, rfl⟩
    exact ⟨rfl, declared, named⟩
  · rintro ⟨rfl, declared, named⟩
    exact ⟨method, ⟨declared, named⟩, rfl, rfl⟩

theorem firstMethods_isOverloadSet {index : SourceIndex} {name : String}
    {groups : List (List OwnedMethod)}
    (each : ∀ group ∈ groups, index.IsOverloadSet name group) :
    index.IsOverloadSet name (firstMethods groups) := by
  unfold firstMethods
  cases found : groups.find? (!·.isEmpty) with
  | none => exact .inl rfl
  | some group => exact each group (List.mem_of_find?_eq_some found)

theorem hierarchy_subset (index : SourceIndex) (owner : String) (place : Declaration)
    (above : place ∈ index.hierarchy owner) : place ∈ index.declarations := by
  obtain ⟨fqn, -, found⟩ := List.mem_filterMap.mp above
  exact declaration?_mem found

theorem methodsNamed_isOverloadSet (index : SourceIndex) (owner name : String) :
    index.IsOverloadSet name (index.methodsNamed owner name) := by
  apply firstMethods_isOverloadSet
  intro group member
  obtain ⟨place, above, rfl⟩ := List.mem_map.mp member
  exact .inr ⟨place, index.hierarchy_subset owner place above, rfl⟩

theorem firstMethodsNamed_isOverloadSet (index : SourceIndex) (owners : List String)
    (name : String) :
    index.IsOverloadSet name
      (firstMethods (owners.map fun owner => index.methodsNamed owner name)) := by
  apply firstMethods_isOverloadSet
  intro group member
  obtain ⟨owner, -, rfl⟩ := List.mem_map.mp member
  exact index.methodsNamed_isOverloadSet owner name

theorem methodsOn_isOverloadSet (index : SourceIndex) (scope : Scope) (receiver : Receiver)
    (type : Option String) (name : String) :
    index.IsOverloadSet name (index.methodsOn scope receiver type name) := by
  cases receiver with
  | implicit =>
      have around := index.firstMethodsNamed_isOverloadSet (index.enclosing scope.type) name
      rw [methodsOn]
      split
      · exact index.firstMethodsNamed_isOverloadSet _ name
      · exact around
  | this => exact index.methodsNamed_isOverloadSet scope.type.fqn name
  | super => exact index.firstMethodsNamed_isOverloadSet _ name
  | _ =>
      -- All other receivers are values of some type, indexed or not.
      cases type with
      | none => exact .inl rfl
      | some owner => exact index.methodsNamed_isOverloadSet owner name

theorem candidates_isOverloadSet (index : SourceIndex) (scope : Scope) (site : CallSite) :
    index.IsOverloadSet site.name (index.candidates scope site) :=
  index.methodsOn_isOverloadSet scope site.receiver _ site.name

theorem IsOverloadSet.declared {index : SourceIndex} {name : String} {found : List OwnedMethod}
    (group : index.IsOverloadSet name found) {one : OwnedMethod} (member : one ∈ found) :
    one.method.name = name ∧ ∃ place ∈ index.declarations,
      one.owner = place.type.fqn ∧ one.method ∈ place.type.methods := by
  rcases group with rfl | ⟨place, declared, rfl⟩
  · simp at member
  · obtain ⟨owner, method, named⟩ := (mem_ownMethods name place.type one).mp member
    exact ⟨named, place, declared, owner, method⟩

theorem IsOverloadSet.owner_eq {index : SourceIndex} {name : String} {found : List OwnedMethod}
    (group : index.IsOverloadSet name found) {one other : OwnedMethod} (left : one ∈ found)
    (right : other ∈ found) : one.owner = other.owner := by
  rcases group with rfl | ⟨place, declared, rfl⟩
  · simp at left
  · rw [((mem_ownMethods name place.type one).mp left).1,
      ((mem_ownMethods name place.type other).mp right).1]

end SourceIndex

def OwnedMethod.id (policy : OverloadPolicy) (found : OwnedMethod) : MethodId :=
  MethodId.declared policy found.owner found.method

namespace Target

def ofIds : List MethodId → Target
  | [id] => .exact id
  | ids => .ambiguous ids

@[simp] theorem ids_ofIds (ids : List MethodId) : (ofIds ids).ids = ids := by
  match ids with
  | [] | [_] | _ :: _ :: _ => rfl

end Target

namespace SourceIndex

theorem fitting_subset (found : List OwnedMethod) (arguments : Nat) :
    fitting found arguments ⊆ found := by
  unfold fitting
  split
  · exact fun _ member => member
  · exact List.filter_sublist.subset

theorem fitting_eq_nil_iff (found : List OwnedMethod) (arguments : Nat) :
    fitting found arguments = [] ↔ found = [] := by
  unfold fitting
  split
  · rfl
  · rename_i suited
    refine ⟨fun empty => absurd empty suited, ?_⟩
    rintro rfl
    exact absurd List.filter_nil suited

def namedBy (target : Option Target) : List MethodId :=
  (target.map Target.ids).getD []

theorem mem_namedBy (target : Option Target) (id : MethodId) :
    id ∈ namedBy target ↔ ∃ found, target = some found ∧ id ∈ found.ids := by
  cases target <;> simp [namedBy]

theorem namedBy_target_merge (found : List OwnedMethod) (arguments : Nat) :
    namedBy (target .merge found arguments) = (found.head?.map (OwnedMethod.id .merge)).toList := by
  cases found <;> rfl

theorem target_distinguish {found : List OwnedMethod} (nonempty : found ≠ []) (arguments : Nat) :
    target .distinguish found arguments =
      some (.ofIds ((fitting found arguments).map (OwnedMethod.id .distinguish))) := by
  cases found with
  | nil => exact absurd rfl nonempty
  | cons first rest =>
      have ids : (fun one : OwnedMethod => MethodId.declared .distinguish one.owner one.method) =
          OwnedMethod.id .distinguish := rfl
      rw [target, ids]
      generalize (fitting (first :: rest) arguments).map (OwnedMethod.id .distinguish) = named
      rcases named with _ | ⟨id, _ | ⟨other, others⟩⟩ <;> rfl

theorem namedBy_target_distinguish (found : List OwnedMethod) (arguments : Nat) :
    namedBy (target .distinguish found arguments) =
      (fitting found arguments).map (OwnedMethod.id .distinguish) := by
  cases found with
  | nil => rfl
  | cons first rest =>
      rw [target_distinguish (List.cons_ne_nil first rest)]
      exact Target.ids_ofIds _

theorem namedBy_target_subset (policy : OverloadPolicy) (found : List OwnedMethod)
    (arguments : Nat) : namedBy (target policy found arguments) ⊆ found.map (OwnedMethod.id policy) := by
  cases policy with
  | merge =>
      rw [namedBy_target_merge]
      cases found <;> simp
  | distinguish =>
      rw [namedBy_target_distinguish]
      exact List.map_subset _ (fitting_subset found arguments)

theorem resolveCall_declared (index : SourceIndex) (policy : OverloadPolicy) (scope : Scope)
    (site : CallSite) (id : MethodId) (named : id ∈ namedBy (index.resolveCall policy scope site)) :
    ∃ place ∈ index.declarations, ∃ method ∈ place.type.methods,
      method.name = site.name ∧ id = MethodId.declared policy place.type.fqn method := by
  obtain ⟨one, candidate, rfl⟩ := List.mem_map.mp (namedBy_target_subset policy _ _ named)
  obtain ⟨name, place, declared, owner, method⟩ :=
    (index.candidates_isOverloadSet scope site).declared candidate
  exact ⟨place, declared, one.method, method, name, by rw [OwnedMethod.id, owner]⟩

theorem targetsIn_eq_flatMap (index : SourceIndex) (resolver : Resolver) (scope : Scope) :
    index.targetsIn resolver scope =
      scope.method.calls.flatMap fun site => namedBy (resolver.resolve index scope site) :=
  rfl

end SourceIndex

end CallContext
