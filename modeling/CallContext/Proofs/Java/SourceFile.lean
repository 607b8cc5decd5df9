import CallContext.Java.SourceFile
import CallContext.Proofs.Collection.Table
import CallContext.Proofs.Java.TypeText

/-!
The names that a source file mentions, and what is known of a file that has been read: its texts are
plain, the simple name of every type is an identifier, and a type that a type is declared in is a type of
the same file.
-/

namespace CallContext.Java

open TypeText

def Receiver.mentioned : Receiver → List String
  | .name id => [id]
  | .field object member => object.mentioned ++ [member]
  | .creation type | .cast type => [type]
  | .call object _ _ _ => object.mentioned
  | .implicit | .this | .super | .other => []

def Method.mentioned (method : Method) : List String :=
  method.returnType :: method.parameters.map (·.type) ++ method.locals.toList.map (·.2) ++
    method.calls.flatMap (·.receiver.mentioned)

def TypeDeclaration.mentioned (type : TypeDeclaration) : List String :=
  type.fqn :: type.supertypes ++ type.fields.toList.map (·.2) ++ type.methods.flatMap Method.mentioned

def SourceFile.mentioned (file : SourceFile) : List String :=
  file.imports.map (·.path) ++ file.types.flatMap TypeDeclaration.mentioned

def Event.IsPlain : Event → Prop
  | .call site => ∀ name ∈ site.receiver.mentioned, TypeText.IsPlain name
  | .variable _ type => TypeText.IsPlain type

theorem isPlain_of_mentioned_ofCode (code : Code) :
    ∀ name ∈ (Receiver.ofCode code).mentioned, TypeText.IsPlain name := by
  intro name member
  cases code with
  | name id =>
      obtain rfl := List.mem_singleton.mp member
      exact id.isPlain_text
  | field object id =>
      rcases List.mem_append.mp member with inObject | last
      · exact isPlain_of_mentioned_ofCode object name inObject
      · obtain rfl := List.mem_singleton.mp last
        exact id.isPlain_text
  | creation type parts | cast type parts =>
      obtain rfl := List.mem_singleton.mp member
      exact isPlain_erase type
  | call object typeArguments method arguments line =>
      exact isPlain_of_mentioned_ofCode object name member
  | parenthesized inner => exact isPlain_of_mentioned_ofCode inner name member
  | _ => cases member

theorem isPlain_variableEvent {type : String} {code : Code} :
    ∀ event ∈ Code.variableEvent type code, event.IsPlain := by
  intro event member
  unfold Code.variableEvent at member
  split at member
  · obtain ⟨written, -, rfl⟩ := List.mem_map.mp member
    exact isPlain_erase written
  · cases member

mutual

theorem isPlain_of_mem_events (code : Code) : ∀ event ∈ code.events, event.IsPlain := by
  intro event member
  cases code with
  | call object typeArguments method arguments line =>
      simp only [Code.events, List.mem_append, List.mem_singleton] at member
      rcases member with ((inObject | inTypes) | inArguments) | rfl
      · exact isPlain_of_mem_events object event inObject
      · exact isPlain_of_mem_eventsOf typeArguments event inTypes
      · exact isPlain_of_mem_eventsOf arguments event inArguments
      · exact isPlain_of_mentioned_ofCode object
  | field object name => exact isPlain_of_mem_events object event member
  | creation type parts => exact isPlain_of_mem_eventsOf parts event member
  | cast type parts => exact isPlain_of_mem_eventsOf parts event member
  | parenthesized inner => exact isPlain_of_mem_events inner event member
  | locals parts type declarators =>
      simp only [Code.events, List.mem_append, List.mem_flatMap] at member
      rcases member with (inParts | inDeclarators) | ⟨declarator, -, declared⟩
      · exact isPlain_of_mem_eventsOf parts event inParts
      · exact isPlain_of_mem_eventsOf declarators event inDeclarators
      · exact isPlain_variableEvent event declared
  | declarator name dimensions value =>
      rcases List.mem_append.mp member with inDimensions | inValue
      · exact isPlain_of_mem_eventsOf dimensions event inDimensions
      · exact isPlain_of_mem_eventsOf value event inValue
  | binding parts name type =>
      rcases List.mem_append.mp member with inParts | declared
      · exact isPlain_of_mem_eventsOf parts event inParts
      · split_ifs at declared
        · cases declared
        · obtain rfl := List.mem_singleton.mp declared
          exact isPlain_erase type
  | caught parts name types =>
      rcases List.mem_append.mp member with inParts | declared
      · exact isPlain_of_mem_eventsOf parts event inParts
      · split at declared
        · obtain rfl := List.mem_singleton.mp declared
          exact isPlain_erase _
        · cases declared
  | other parts => exact isPlain_of_mem_eventsOf parts event member
  | implicit | this | super | name _ => cases member

theorem isPlain_of_mem_eventsOf (codes : List Code) : ∀ event ∈ Code.eventsOf codes, event.IsPlain := by
  intro event member
  cases codes with
  | nil => cases member
  | cons first rest =>
      rcases List.mem_append.mp member with inFirst | inRest
      · exact isPlain_of_mem_events first event inFirst
      · exact isPlain_of_mem_eventsOf rest event inRest

end

theorem FormalParameter.isPlain_dots (parameter : FormalParameter) : TypeText.IsPlain parameter.dots := by
  unfold FormalParameter.dots
  split_ifs <;> decide

theorem isPlain_toParameter (parameter : FormalParameter) :
    TypeText.IsPlain parameter.toParameter.type :=
  isPlain_append (isPlain_erase parameter.type) parameter.isPlain_dots

theorem isPlain_of_mem_toMethod (declaration : MethodSyntax) :
    ∀ name ∈ declaration.toMethod.mentioned, TypeText.IsPlain name := by
  have events : ∀ event ∈ declaration.events, event.IsPlain := by
    intro event member
    unfold MethodSyntax.events at member
    split at member
    · exact isPlain_of_mem_events _ event member
    · cases member
  intro name member
  simp only [Method.mentioned, MethodSyntax.toMethod, List.cons_append, List.mem_cons, List.mem_append,
    List.mem_map, List.mem_flatMap, List.mem_filterMap] at member
  rcases member with rfl | (⟨_, ⟨parameter, -, rfl⟩, rfl⟩ | ⟨entry, listed, rfl⟩) |
    ⟨site, ⟨event, among, isSite⟩, inSite⟩
  · exact isPlain_erase declaration.returnType
  · exact isPlain_toParameter parameter
  · obtain ⟨event, among, isVariable⟩ := List.mem_filterMap.mp (Table.mem_of_mem_ofList listed)
    have plain := events event among
    obtain site | ⟨id, type⟩ := event
    · cases isVariable
    · obtain rfl := Option.some.inj isVariable
      exact plain
  · have plain := events event among
    obtain site | ⟨id, type⟩ := event
    · obtain rfl := Option.some.inj isSite
      exact plain name inSite
    · cases isSite

structure TypeDeclaration.IsRead (type : TypeDeclaration) : Prop where
  named : type.name ≠ ""
  simpleName : Name.simpleName type.fqn = type.name
  plain : ∀ name ∈ type.mentioned, TypeText.IsPlain name

theorem isPlain_of_mem_fieldEntries {member : Member} {entry : String × String}
    (declared : entry ∈ member.fieldEntries) : TypeText.IsPlain entry.2 := by
  unfold Member.fieldEntries at declared
  split at declared
  · obtain ⟨name, -, rfl⟩ := List.mem_map.mp declared
    exact isPlain_erase _
  · cases declared

theorem isPlain_of_mem_method? {member : Member} {method : Method}
    (declared : member.method? = some method) :
    ∀ name ∈ method.mentioned, TypeText.IsPlain name := by
  cases member with
  | method declaration =>
      obtain rfl := Option.some.inj declared
      exact isPlain_of_mem_toMethod declaration
  | _ => cases declared

theorem isRead_toType (heading : TypeHeading) (members : List Member) {qualifier : String}
    (plain : TypeText.IsPlain qualifier) (outer : Option String) :
    (heading.toType members qualifier outer).IsRead where
  named := heading.name.text_ne_empty
  simpleName := by
    have simple := Name.simpleName_join_pair qualifier heading.name.text_ne_empty
    rw [Name.simpleName_of_not_mem heading.name.dot_not_mem_text] at simple
    exact simple
  plain := by
    intro name mentioned
    simp only [TypeDeclaration.mentioned, TypeHeading.toType, List.cons_append, List.mem_cons,
      List.mem_append, List.mem_map, List.mem_flatMap, List.mem_filterMap] at mentioned
    rcases mentioned with rfl | (⟨written, -, rfl⟩ | ⟨entry, listed, rfl⟩) |
      ⟨method, ⟨member, -, declared⟩, inMethod⟩
    · exact isPlain_join_pair plain heading.name.isPlain_text
    · exact isPlain_erase written
    · rcases List.mem_append.mp (Table.mem_of_mem_ofList listed) with inHeading | inMembers
      · obtain ⟨component, -, rfl⟩ := List.mem_map.mp inHeading
        exact isPlain_erase component.2
      · obtain ⟨member, -, declared⟩ := List.mem_flatMap.mp inMembers
        exact isPlain_of_mem_fieldEntries declared
    · exact isPlain_of_mem_method? declared name inMethod

def TypeDeclaration.IsWithin (type : TypeDeclaration) (outer : Option String)
    (types : List TypeDeclaration) : Prop :=
  ∀ name, type.outer = some name → outer = some name ∨ ∃ around ∈ types, around.fqn = name

theorem TypeDeclaration.IsWithin.mono {type : TypeDeclaration} {outer : Option String}
    {types more : List TypeDeclaration} (within : type.IsWithin outer types) (subset : types ⊆ more) :
    type.IsWithin outer more := by
  intro name same
  rcases within name same with here | ⟨around, member, named⟩
  · exact .inl here
  · exact .inr ⟨around, subset member, named⟩

mutual

theorem isRead_of_mem_types {qualifier : String} (plain : TypeText.IsPlain qualifier)
    (outer : Option String) (member : Member) :
    ∀ type ∈ member.types qualifier outer,
      type.IsRead ∧ type.IsWithin outer (member.types qualifier outer) := by
  intro type declared
  cases member with
  | type heading members =>
      have first := isRead_toType heading members plain outer
      rw [Member.types] at declared ⊢
      rcases List.mem_cons.mp declared with rfl | inside
      · exact ⟨first, fun name same => .inl same⟩
      · obtain ⟨read, within⟩ :=
          isRead_of_mem_typesOf (first.plain _ List.mem_cons_self) _ members type inside
        refine ⟨read, fun name same => .inr ?_⟩
        rcases within name same with here | ⟨around, member, named⟩
        · exact ⟨_, List.mem_cons_self, Option.some.inj here⟩
        · exact ⟨around, List.mem_cons_of_mem _ member, named⟩
  | _ => cases declared

theorem isRead_of_mem_typesOf {qualifier : String} (plain : TypeText.IsPlain qualifier)
    (outer : Option String) (members : List Member) :
    ∀ type ∈ Member.typesOf qualifier outer members,
      type.IsRead ∧ type.IsWithin outer (Member.typesOf qualifier outer members) := by
  intro type declared
  cases members with
  | nil => cases declared
  | cons member rest =>
      rw [Member.typesOf] at declared ⊢
      rcases List.mem_append.mp declared with first | later
      · obtain ⟨read, within⟩ := isRead_of_mem_types plain outer member type first
        exact ⟨read, within.mono (List.subset_append_left _ _)⟩
      · obtain ⟨read, within⟩ := isRead_of_mem_typesOf plain outer rest type later
        exact ⟨read, within.mono (List.subset_append_right _ _)⟩

end

/-- Whether the declarations of a file were read from some text. The file need not keep the text. -/
def SourceFile.IsParsed (file : SourceFile) : Prop :=
  ∃ text parsed, SourceFile.parse file.path text = .ok parsed ∧
    file = { parsed with content := file.content, size := file.size }

structure SourceFile.IsRead (file : SourceFile) : Prop where
  types : ∀ type ∈ file.types, type.IsRead
  within : ∀ type ∈ file.types, type.IsWithin none file.types
  plain : ∀ name ∈ file.mentioned, TypeText.IsPlain name

theorem isRead_of_mem_itemTypes {qualifier : String} (plain : TypeText.IsPlain qualifier)
    (items : List Item) :
    ∀ type ∈ Item.types qualifier items,
      type.IsRead ∧ type.IsWithin none (Item.types qualifier items) := by
  induction items generalizing qualifier with
  | nil => exact nofun
  | cons item rest ih =>
      intro type declared
      cases item with
      | package name => exact ih (isPlain_erase name) type declared
      | imports declaration | code written => exact ih plain type declared
      | member declaration =>
          rw [Item.types] at declared ⊢
          rcases List.mem_append.mp declared with first | later
          · obtain ⟨read, within⟩ := isRead_of_mem_types plain none declaration type first
            exact ⟨read, within.mono (List.subset_append_left _ _)⟩
          · obtain ⟨read, within⟩ := ih plain type later
            exact ⟨read, within.mono (List.subset_append_right _ _)⟩

theorem isRead_ofItems (path content : String) (items : List Item) :
    (SourceFile.ofItems path content items).IsRead where
  types type declared := (isRead_of_mem_itemTypes (by decide) items type declared).1
  within type declared := (isRead_of_mem_itemTypes (by decide) items type declared).2
  plain := by
    intro name mentioned
    rcases List.mem_append.mp mentioned with inImports | inTypes
    · obtain ⟨found, listed, rfl⟩ := List.mem_map.mp inImports
      obtain ⟨item, -, isImport⟩ := List.mem_filterMap.mp listed
      cases item with
      | imports declaration =>
          obtain rfl := Option.some.inj isImport
          exact isPlain_erase declaration.path
      | _ => cases isImport
    · obtain ⟨type, declared, inType⟩ := List.mem_flatMap.mp inTypes
      exact (isRead_of_mem_itemTypes (by decide) items type declared).1.plain name inType

theorem SourceFile.IsRead.exists_outer {file : SourceFile} (read : file.IsRead) {type : TypeDeclaration}
    (declared : type ∈ file.types) {name : String} (outer : type.outer = some name) :
    ∃ around ∈ file.types, around.fqn = name :=
  (read.within type declared name outer).resolve_left nofun

theorem SourceFile.parse_eq_ok_iff {path content : String} {file : SourceFile} :
    SourceFile.parse path content = .ok file ↔
      ∃ items, parseSource content = .ok items ∧ SourceFile.ofItems path content items = file := by
  unfold SourceFile.parse
  cases parseSource content <;> simp

theorem SourceFile.parse_eq_ok {path content : String} {file : SourceFile}
    (parsed : SourceFile.parse path content = .ok file) :
    ∃ items, file = SourceFile.ofItems path content items := by
  obtain ⟨items, -, same⟩ := SourceFile.parse_eq_ok_iff.mp parsed
  exact ⟨items, same.symm⟩

theorem eq_ok_of_toOption {ε α : Type} {outcome : Except ε α} {value : α}
    (found : outcome.toOption = some value) : outcome = .ok value := by
  cases outcome with
  | error failure => cases found
  | ok other => exact congrArg Except.ok (Option.some.inj found)

theorem SourceFile.parse_of_toOption {path content : String} {file : SourceFile}
    (found : (SourceFile.parse path content).toOption = some file) :
    SourceFile.parse path content = .ok file :=
  eq_ok_of_toOption found

theorem SourceFile.isParsed_of_parse {path content : String} {file : SourceFile}
    (parsed : SourceFile.parse path content = .ok file) : file.IsParsed := by
  obtain ⟨items, rfl⟩ := SourceFile.parse_eq_ok parsed
  exact ⟨content, _, parsed, rfl⟩

theorem SourceFile.IsParsed.isRead {file : SourceFile} (parsed : file.IsParsed) : file.IsRead := by
  obtain ⟨text, whole, read, same⟩ := parsed
  obtain ⟨items, rfl⟩ := SourceFile.parse_eq_ok read
  have isRead := isRead_ofItems file.path text items
  rw [same]
  exact ⟨isRead.types, isRead.within, isRead.plain⟩

end CallContext.Java
