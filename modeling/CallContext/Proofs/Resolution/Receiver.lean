import CallContext.Proofs.Resolution.Without

namespace CallContext.SourceIndex.Without

open Java

variable {hidden : List String} {large small : SourceIndex} (apart : Without hidden large small)

include apart

theorem supertypesOf_eq {place : Declaration} (declared : place ∈ small.declarations) :
    large.supertypesOf place.file place.type = small.supertypesOf place.file place.type := by
  refine List.filterMap_congr fun written member => ?_
  have mentioned : written ∈ place.type.mentioned := by simp [TypeDeclaration.mentioned, member]
  exact apart.resolveType_eq declared (apart.isClear_mentioned declared mentioned)

theorem parents_eq {fqn : String} (shown : Name.simpleName fqn ∉ hidden) :
    large.parents fqn = small.parents fqn := by
  rw [parents, parents, apart.declaration?_eq shown]
  cases found : small.declaration? fqn with
  | none => rfl
  | some place => exact apart.supertypesOf_eq (declaration?_mem found)

theorem simpleName_of_mem_parents {fqn above : String} (member : above ∈ small.parents fqn) :
    Name.simpleName above ∉ hidden :=
  (apart.avoids_fqn (parents_subset fqn above member)).simpleName

theorem reached_eq {owner : String} (shown : Name.simpleName owner ∉ hidden) :
    Search.reached large.parents large.typeNames.length [owner] =
      Search.reached small.parents small.typeNames.length [owner] := by
  calc Search.reached large.parents large.typeNames.length [owner]
      = Search.reached small.parents large.typeNames.length [owner] := by
        have start : ∀ fqn ∈ [owner], Name.simpleName fqn ∉ hidden := by simpa using shown
        symm
        exact Search.reached_congr (fun fqn visible => (apart.parents_eq visible).symm)
          (fun fqn _ above member => apart.simpleName_of_mem_parents member) _ start
    _ = Search.reached small.parents small.typeNames.length [owner] :=
        Search.reached_of_le parents_subset (le_refl _) apart.length_typeNames_le [owner]

theorem hierarchy_eq {owner : String} (shown : Name.simpleName owner ∉ hidden) :
    large.hierarchy owner = small.hierarchy owner := by
  rw [hierarchy, hierarchy, apart.reached_eq shown]
  refine List.filterMap_congr fun fqn member => ?_
  apply apart.declaration?_eq
  rcases List.mem_cons.mp member with rfl | reached
  · exact shown
  · exact (apart.avoids_fqn (Search.mem_of_mem_reached parents_subset reached)).simpleName

theorem methodsNamed_eq {owner : String} (shown : Name.simpleName owner ∉ hidden) (name : String) :
    large.methodsNamed owner name = small.methodsNamed owner name := by
  rw [methodsNamed, methodsNamed, apart.hierarchy_eq shown]

theorem fieldType_eq {owner : String} (shown : Name.simpleName owner ∉ hidden) (name : String) :
    large.fieldType owner name = small.fieldType owner name := by
  rw [fieldType, fieldType, apart.hierarchy_eq shown]
  rw [← List.head?_filterMap, ← List.head?_filterMap]
  refine congrArg List.head? (List.filterMap_congr fun place above => ?_)
  have declared := hierarchy_subset small owner place above
  cases found : place.type.fields.get? name with
  | none => rw [Option.map_none, Option.map_none]
  | some written =>
      have mentioned : written ∈ place.type.mentioned := by
        have listed : (name, written) ∈ place.type.fields.toList := Table.get?_eq_some_iff.mp found
        simp only [TypeDeclaration.mentioned, List.mem_append, List.mem_map]
        exact .inl (.inr ⟨_, listed, rfl⟩)
      have same := apart.resolveType_eq declared (apart.isClear_mentioned declared mentioned)
      rw [Option.map_some, Option.map_some, same]

theorem memberType_eq {owner name : String} (shown : Name.simpleName owner ∉ hidden)
    (avoids : Name.Avoids hidden name) : large.memberType owner name = small.memberType owner name := by
  have member : Name.simpleName (Name.member owner name) ∉ hidden := by
    rw [Name.simpleName_member]
    exact avoids.simpleName
  rw [memberType, memberType, apart.fieldType_eq shown, apart.known?_eq member]

omit apart in
theorem isClear_dotted {receiver : Receiver}
    (clear : ∀ name ∈ receiver.mentioned, Name.IsClear hidden name) {text : String}
    (dotted : receiver.dotted = some text) : Name.IsClear hidden text := by
  induction receiver generalizing text with
  | name id =>
      obtain rfl := Option.some.inj dotted
      exact clear id List.mem_cons_self
  | field object member ih =>
      obtain ⟨head, before, rfl⟩ := Option.map_eq_some_iff.mp dotted
      refine (ih (fun name inObject => ?_) before).member (clear member ?_)
      · exact clear name (List.mem_append_left _ inObject)
      · exact List.mem_append_right _ List.mem_cons_self
  | _ => cases dotted

theorem isClear_scope {scope : Scope} (declared : scope ∈ small.scopes) {name : String}
    (mentioned : name ∈ scope.method.mentioned) : Name.IsClear hidden name := by
  obtain ⟨place, method⟩ := (mem_scopes small scope).mp declared
  refine apart.isClear_mentioned place (List.mem_append_right _ ?_)
  exact List.mem_flatMap.mpr ⟨scope.method, method, mentioned⟩

theorem typeAt_eq {scope : Scope} (declared : scope ∈ small.scopes) {written : String}
    (clear : Name.IsClear hidden written) : large.typeAt scope written = small.typeAt scope written :=
  apart.resolveType_eq ((mem_scopes small scope).mp declared).1 clear

theorem enclosing_scope_eq {scope : Scope} (declared : scope ∈ small.scopes) :
    large.enclosing scope.type = small.enclosing scope.type := by
  have avoids := apart.avoids_place ((mem_scopes small scope).mp declared).1
  exact apart.enclosing_eq avoids

theorem simpleName_of_mem_enclosing {scope : Scope} {owner : String}
    (around : owner ∈ small.enclosing scope.type) : Name.simpleName owner ∉ hidden :=
  (apart.avoids_fqn (enclosing_subset scope.type owner around)).simpleName

omit apart in
theorem mem_mentioned_of_writtenType {scope : Scope} {name written : String}
    (found : writtenType scope name = some written) : written ∈ scope.method.mentioned := by
  unfold writtenType at found
  simp only [Method.mentioned, List.cons_append, List.mem_cons, List.mem_append, List.mem_map]
  split at found
  · rename_i parameter declared
    obtain rfl := Option.some.inj found
    exact .inr (.inl (.inl ⟨parameter, List.mem_of_find?_eq_some declared, rfl⟩))
  · exact .inr (.inl (.inr ⟨_, Table.get?_eq_some_iff.mp found, rfl⟩))

theorem variableType_eq {scope : Scope} (declared : scope ∈ small.scopes) (name : String) :
    large.variableType scope name = small.variableType scope name := by
  rw [variableType, variableType]
  cases found : writtenType scope name with
  | some written =>
      have mentioned := mem_mentioned_of_writtenType found
      simp only [apart.typeAt_eq declared (apart.isClear_scope declared mentioned)]
  | none =>
      rw [apart.enclosing_scope_eq declared, ← List.head?_filterMap, ← List.head?_filterMap]
      refine congrArg List.head? (List.filterMap_congr fun owner around => ?_)
      exact apart.fieldType_eq (apart.simpleName_of_mem_enclosing around) name

theorem importedMethods_eq {scope : Scope} (declared : scope ∈ small.scopes) (name : String) :
    large.importedMethods scope.file name = small.importedMethods scope.file name := by
  rw [importedMethods, importedMethods]
  refine congrArg firstMethods (List.map_congr_left fun owner imported => ?_)
  obtain ⟨found, listed, brought⟩ := List.mem_filterMap.mp imported
  have path := apart.avoids_path ((mem_scopes small scope).mp declared).1 listed
  refine apart.methodsNamed_eq (Name.Avoids.simpleName ?_) name
  unfold staticOwner at brought
  split_ifs at brought
  · obtain rfl := Option.some.inj brought
    exact path
  · split at brought
    · rename_i before member cut
      split_ifs at brought
      obtain rfl := Option.some.inj brought
      rw [Name.splitLast_eq_some cut] at path
      exact (Name.avoids_member.mp path).1
    · cases brought

theorem firstMethods_eq {owners : List String} (shown : ∀ owner ∈ owners, Name.simpleName owner ∉ hidden)
    (name : String) :
    firstMethods (owners.map fun owner => large.methodsNamed owner name) =
      firstMethods (owners.map fun owner => small.methodsNamed owner name) :=
  congrArg firstMethods (List.map_congr_left fun owner member => apart.methodsNamed_eq (shown owner member) name)

theorem methodsOn_eq {scope : Scope} (declared : scope ∈ small.scopes) (receiver : Receiver)
    {type : Option String} (shown : ∀ owner, type = some owner → Name.simpleName owner ∉ hidden)
    (name : String) :
    large.methodsOn scope receiver type name = small.methodsOn scope receiver type name := by
  have place := ((mem_scopes small scope).mp declared).1
  cases receiver with
  | implicit =>
      have shown : ∀ owner ∈ small.enclosing scope.type, Name.simpleName owner ∉ hidden :=
        fun owner => apart.simpleName_of_mem_enclosing
      have around := apart.firstMethods_eq shown name
      simp only [methodsOn, apart.enclosing_scope_eq declared, around,
        apart.importedMethods_eq declared name]
  | this => exact apart.methodsNamed_eq (apart.avoids_place place).simpleName name
  | super =>
      have above : ∀ owner ∈ small.supertypesOf scope.file scope.type, Name.simpleName owner ∉ hidden :=
        fun owner member => (apart.avoids_fqn (supertypesOf_subset _ _ owner member)).simpleName
      have groups := apart.firstMethods_eq above name
      rw [methodsOn, methodsOn, ← groups, ← apart.supertypesOf_eq place]
  | _ =>
      -- All other receivers are values of some type, indexed or not.
      cases type with
      | none => rfl
      | some owner => exact apart.methodsNamed_eq (shown owner rfl) name

theorem returnedType_eq {name : String} {group : List OwnedMethod}
    (overloads : small.IsOverloadSet name group) {found : OwnedMethod} (member : found ∈ group) :
    large.returnedType found = small.returnedType found := by
  obtain ⟨-, place, declared, owner, method⟩ := overloads.declared member
  have clear : Name.IsClear hidden found.method.returnType := by
    refine apart.isClear_mentioned declared (List.mem_append_right _ ?_)
    exact List.mem_flatMap.mpr ⟨found.method, method, List.mem_cons_self⟩
  rw [returnedType, returnedType, owner, apart.declaration?_eq (apart.avoids_place declared).simpleName]
  cases known : small.declaration? place.type.fqn with
  | none => rw [Option.bind_none, Option.bind_none]
  | some first =>
      rw [Option.bind_some, Option.bind_some]
      exact apart.resolveType_eq (declaration?_mem known) clear

theorem simpleName_of_receiverType {scope : Scope} {receiver : Receiver} {owner : String}
    (meant : small.receiverType scope receiver = some owner) : Name.simpleName owner ∉ hidden :=
  (apart.avoids_fqn (receiverType_mem meant)).simpleName

theorem receiverType_eq {scope : Scope} (declared : scope ∈ small.scopes) {receiver : Receiver}
    (clear : ∀ name ∈ receiver.mentioned, Name.IsClear hidden name) :
    large.receiverType scope receiver = small.receiverType scope receiver := by
  have place := ((mem_scopes small scope).mp declared).1
  induction receiver with
  | this => exact apart.known?_eq (apart.avoids_place place).simpleName
  | super => rw [receiverType, receiverType, apart.supertypesOf_eq place]
  | name id =>
      rw [receiverType, receiverType, apart.variableType_eq declared id,
        apart.typeAt_eq declared (clear id List.mem_cons_self)]
  | field object member ih =>
      -- A member of the object, or a dotted name that is resolved as a whole.
      have inObject := ih fun name mentioned => clear name (List.mem_append_left _ mentioned)
      have last := clear member (List.mem_append_right _ List.mem_cons_self)
      have selected : ((small.receiverType scope object).bind fun owner => large.memberType owner member) =
          (small.receiverType scope object).bind fun owner => small.memberType owner member := by
        cases owner : small.receiverType scope object with
        | none => rw [Option.bind_none, Option.bind_none]
        | some owner =>
            rw [Option.bind_some, Option.bind_some]
            exact apart.memberType_eq (apart.simpleName_of_receiverType ‹_›) last.avoids
      have whole : (Receiver.field object member).dotted.bind (large.typeAt scope) =
          (Receiver.field object member).dotted.bind (small.typeAt scope) := by
        cases text : (Receiver.field object member).dotted with
        | none => rw [Option.bind_none, Option.bind_none]
        | some text =>
            rw [Option.bind_some, Option.bind_some]
            exact apart.typeAt_eq declared (isClear_dotted clear ‹_›)
      rw [receiverType, receiverType, inObject, selected, whole]
  | creation type | cast type => exact apart.typeAt_eq declared (clear type List.mem_cons_self)
  | call object name arguments line ih =>
      have inObject := ih clear
      have shown : ∀ owner, small.receiverType scope object = some owner →
          Name.simpleName owner ∉ hidden := fun owner => apart.simpleName_of_receiverType
      have methods := apart.methodsOn_eq declared object shown name
      rw [receiverType, receiverType, inObject, methods]
      cases first : (small.methodsOn scope object (small.receiverType scope object) name).head? with
      | none => rw [Option.bind_none, Option.bind_none]
      | some found =>
          rw [Option.bind_some, Option.bind_some]
          exact apart.returnedType_eq (small.methodsOn_isOverloadSet scope object _ name)
            (List.mem_of_head? first)
  | implicit | other => rfl

theorem candidates_eq {scope : Scope} (declared : scope ∈ small.scopes) {site : CallSite}
    (inside : site ∈ scope.method.calls) :
    large.candidates scope site = small.candidates scope site := by
  have clear : ∀ name ∈ site.receiver.mentioned, Name.IsClear hidden name := by
    intro name mentioned
    refine apart.isClear_scope declared (List.mem_append_right _ ?_)
    exact List.mem_flatMap.mpr ⟨site, inside, mentioned⟩
  rw [candidates, candidates, apart.receiverType_eq declared clear]
  exact apart.methodsOn_eq declared site.receiver
    (fun owner => apart.simpleName_of_receiverType) site.name

theorem resolve_eq {scope : Scope} (declared : scope ∈ small.scopes) {site : CallSite}
    (inside : site ∈ scope.method.calls) (resolver : Resolver) :
    resolver.resolve large scope site = resolver.resolve small scope site := by
  cases resolver with
  | available policy =>
      rw [Resolver.resolve, Resolver.resolve, resolveCall, resolveCall,
        apart.candidates_eq declared inside]
  | unavailable reason => rfl

theorem targetsIn_eq {scope : Scope} (declared : scope ∈ small.scopes) (resolver : Resolver) :
    large.targetsIn resolver scope = small.targetsIn resolver scope := by
  refine List.flatMap_congr fun site inside => ?_
  rw [apart.resolve_eq declared inside resolver]

end CallContext.SourceIndex.Without
