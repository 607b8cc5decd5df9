import CallContext.Proofs.Java.Written.Lines
import CallContext.Proofs.Name

namespace CallContext.Java

open Piece

namespace CallStatement

def codesFrom (line : Nat) : List CallStatement → List Code
  | [] => []
  | first :: rest => first.operand.code line :: codesFrom (line + 1) rest

theorem eventsOf_codesFrom (line : Nat) (statements : List CallStatement) :
    Code.eventsOf (codesFrom line statements) = (callsFrom line statements).map Event.call := by
  induction statements generalizing line with
  | nil => rfl
  | cons first rest ih =>
      rw [codesFrom, Code.eventsOf, first.operand.events_code, ih, callsFrom, List.map_append]

end CallStatement

theorem WrittenType.squash_text (type : WrittenType) : Text.squash type.text = type.text := by
  have apart : areApart (type.pieces ++ []) := type.areApart_pieces rfl
  have solid : type.pieces.head? ≠ some .space := by
    obtain ⟨rest, begun⟩ := type.pieces_eq_cons
    simp [begun]
  rw [List.append_nil] at apart
  have squashed := squash_spell apart solid
  rwa [type.spell_pieces, String.ofList_toList] at squashed

namespace WrittenParameter

variable (parameter : WrittenParameter)

def toSyntax : FormalParameter :=
  ⟨parameter.name.text, parameter.type.text, false⟩

def toCode : Code :=
  .binding [] parameter.name.text parameter.type.text

theorem toParameter_toSyntax : parameter.toSyntax.toParameter = parameter.toParameter := by
  simp [toSyntax, FormalParameter.toParameter, FormalParameter.dots, toParameter,
    WrittenType.erase_text]

theorem signatureType_toSyntax : parameter.toSyntax.signatureType = parameter.type.text := by
  simp [toSyntax, FormalParameter.signatureType, FormalParameter.dots, WrittenType.squash_text]

end WrittenParameter

namespace WrittenMethod

variable (method : WrittenMethod)

def toSyntax (line : Nat) : MethodSyntax where
  annotations := []
  name := method.name.text
  returnType := method.returnText
  parameters := method.parameters.map (·.toSyntax)
  line := line
  heading := method.parameters.map (·.toCode)
  body := some (.other (CallStatement.codesFrom (line + 1) method.body))

theorem erase_returnText :
    TypeText.erase method.returnText = (method.returnType.map (·.erased)).getD "void" := by
  rw [returnText]
  cases method.returnType with
  | none => decide
  | some type => exact type.erase_text

theorem squash_returnText : Text.squash method.returnText = method.returnText := by
  rw [returnText]
  cases method.returnType with
  | none => decide
  | some type => exact type.squash_text

theorem signature_toSyntax (line : Nat) : (method.toSyntax line).signature = method.signature := by
  have parameters : (method.parameters.map (·.toSyntax)).map (·.signatureType) =
      method.parameters.map (·.type.text) := by
    simp [WrittenParameter.signatureType_toSyntax]
  rw [MethodSyntax.signature, toSyntax, parameters, squash_returnText, signature]

theorem events_toSyntax (line : Nat) : (method.toSyntax line).events =
    (CallStatement.callsFrom (line + 1) method.body).map Event.call := by
  rw [toSyntax, MethodSyntax.events]
  exact CallStatement.eventsOf_codesFrom (line + 1) method.body

theorem toMethod_toSyntax (line : Nat) : (method.toSyntax line).toMethod = method.toMethod line := by
  have calls := method.events_toSyntax line
  have sites : (method.toSyntax line).events.filterMap Event.site? =
      CallStatement.callsFrom (line + 1) method.body := by
    simp [calls, List.filterMap_map, Event.site?, Function.comp_def]
  have locals : (method.toSyntax line).events.filterMap Event.variable? = [] := by
    simp [calls, Event.variable?]
  have parameters : (method.toSyntax line).parameters.map (·.toParameter) =
      method.parameters.map (·.toParameter) := by
    simp [toSyntax, WrittenParameter.toParameter_toSyntax]
  have fixed : (method.toSyntax line).parameters.any (·.variadic) = false := by
    simp [toSyntax, WrittenParameter.toSyntax]
  rw [MethodSyntax.toMethod, sites, locals, parameters, fixed, signature_toSyntax]
  simp only [toSyntax, erase_returnText]
  rfl

end WrittenMethod

namespace WrittenMember

mutual

def toSyntax (line : Nat) : WrittenMember → Member
  | field type name => .fields type.text [name.text] [.declarator name.text [] []]
  | method declaration => .method (declaration.toSyntax line)
  | nested name superclass members =>
    .type ⟨.classKind, name.toIdentifier, [], superclass.toList.map (·.text), [], []⟩
      (toSyntaxes (line + 1) members)

def toSyntaxes (line : Nat) : List WrittenMember → List Member
  | [] => []
  | first :: rest => first.toSyntax line :: toSyntaxes (line + first.lines.length) rest

end

theorem fieldEntries_toSyntaxes (line : Nat) (members : List WrittenMember) :
    (toSyntaxes line members).flatMap Member.fieldEntries = members.filterMap field? := by
  induction members generalizing line with
  | nil => rfl
  | cons first rest ih =>
      rw [toSyntaxes, List.flatMap_cons, ih]
      cases first with
      | field type name => simp [toSyntax, Member.fieldEntries, field?, type.erase_text]
      | method declaration => rfl
      | nested name superclass members => rfl

theorem method?_toSyntax (line : Nat) (member : WrittenMember) :
    (member.toSyntax line).method? = member.method?.map (·.toMethod line) := by
  cases member with
  | field type name => rfl
  | method declaration => exact congrArg some (declaration.toMethod_toSyntax line)
  | nested name superclass members => rfl

theorem methods_toSyntaxes (line : Nat) (members : List WrittenMember) :
    (toSyntaxes line members).filterMap Member.method? =
      (methodsFrom line members).map fun (line, declared) => declared.toMethod line := by
  induction members generalizing line with
  | nil => rfl
  | cons first rest ih =>
      rw [toSyntaxes, methodsFrom, List.filterMap_cons, method?_toSyntax, ih, List.map_append]
      cases first.method? <;> rfl

theorem join_eq_qualified (qualifier : String) (name : FreeName) :
    Name.join '.' [qualifier, name.text] = qualified qualifier name.text := by
  rw [Name.join_pair, if_neg name.text_ne_empty, qualified, Name.member]
  simp

theorem toType_toSyntaxes (qualifier : String) (outer : Option String) (line : Nat) (name : FreeName)
    (superclass : Option WrittenType) (members : List WrittenMember) :
    TypeHeading.toType ⟨.classKind, name.toIdentifier, [], superclass.toList.map (·.text), [], []⟩
        (toSyntaxes (line + 1) members) qualifier outer =
      declaration qualifier outer line name superclass members := by
  have supertypes : (superclass.toList.map (·.text)).map TypeText.erase =
      superclass.toList.map (·.erased) := by
    simp [WrittenType.erase_text]
  rw [TypeHeading.toType, supertypes, methods_toSyntaxes, fieldEntries_toSyntaxes, join_eq_qualified,
    declaration]
  rfl

mutual

theorem types_toSyntax (qualifier : String) (outer : Option String) (line : Nat) :
    ∀ member : WrittenMember,
      (member.toSyntax line).types qualifier outer = member.types qualifier outer line
  | field .. => rfl
  | method _ => rfl
  | nested name superclass members => by
    have inner (fqn : String) := typesOf_toSyntaxes fqn (some fqn) (line + 1) members
    rw [toSyntax, Member.types, toType_toSyntaxes, types, ← inner]
    rfl

theorem typesOf_toSyntaxes (qualifier : String) (outer : Option String) (line : Nat) :
    ∀ members : List WrittenMember,
      Member.typesOf qualifier outer (toSyntaxes line members) = typesFrom qualifier outer line members
  | [] => rfl
  | first :: rest => by
    rw [toSyntaxes, Member.typesOf, types_toSyntax qualifier outer line first,
      typesOf_toSyntaxes qualifier outer _ rest, typesFrom]

end

mutual

theorem methods_types (qualifier : String) (outer : Option String) (line : Nat) :
    ∀ member : WrittenMember, (member.types qualifier outer line).flatMap (·.methods) =
      (member.classMethods line).map fun (line, declared) => declared.toMethod line
  | field .. => rfl
  | method _ => rfl
  | nested name superclass members => by
    rw [types, List.flatMap_cons, methods_typesFrom _ _ _ members, classMethods, List.map_append]
    rfl

theorem methods_typesFrom (qualifier : String) (outer : Option String) (line : Nat) :
    ∀ members : List WrittenMember, (typesFrom qualifier outer line members).flatMap (·.methods) =
      (classMethodsFrom line members).map fun (line, declared) => declared.toMethod line
  | [] => rfl
  | first :: rest => by
    rw [typesFrom, List.flatMap_append, methods_types _ _ _ first, methods_typesFrom _ _ _ rest,
      classMethodsFrom, List.map_append]

end

end WrittenMember

theorem DottedName.erase_text (name : DottedName) : TypeText.erase name.text = name.text := by
  have erased := (WrittenType.named name [] false).erase_text
  simpa [WrittenType.text, WrittenType.texts, WrittenType.inAngles, WrittenType.brackets,
    WrittenType.erased] using erased

def WrittenImport.toSyntax (declared : WrittenImport) : ImportSyntax :=
  ⟨declared.path.text, declared.isStatic, declared.wildcard⟩

theorem Item.types_imports (qualifier : String) (imports : List ImportSyntax) (rest : List Item) :
    Item.types qualifier (imports.map .imports ++ rest) = Item.types qualifier rest := by
  induction imports with
  | nil => rfl
  | cons first others ih => exact ih

theorem Item.types_members (qualifier : String) (members : List Member) :
    Item.types qualifier (members.map .member) = Member.typesOf qualifier none members := by
  induction members with
  | nil => rfl
  | cons first rest ih => rw [List.map_cons, Item.types, ih, Member.typesOf]

def WrittenItem.toSyntax (line : Nat) : WrittenItem → Item
  | package name => .package name.text
  | imports declared => .imports declared.toSyntax
  | type declared => .member (declared.toMember.toSyntax line)

namespace WrittenFile

variable (file : WrittenFile)

def items : List Item :=
  file.package.toList.map (.package ·.text) ++ (file.imports.map (·.toSyntax)).map .imports ++
    (WrittenMember.toSyntaxes (file.head.length + 1) (file.classes.map (·.toMember))).map .member

theorem package_items : ((file.items.filterMap Item.package?).getLast?).getD "" = file.packageText := by
  have packages : file.items.filterMap Item.package? = file.package.toList.map (·.text) := by
    simp [items, List.filterMap_map, Function.comp_def, Item.package?, DottedName.erase_text]
  rw [packages, packageText]
  cases file.package <;> rfl

theorem imports_items : file.items.filterMap Item.import? = file.imports.map (·.toSyntax) := by
  simp [items, List.filterMap_map, Function.comp_def, Item.import?, DottedName.erase_text,
    WrittenImport.toSyntax]

theorem types_items : Item.types "" file.items =
    WrittenMember.typesFrom file.packageText none (file.head.length + 1)
      (file.classes.map (·.toMember)) := by
  have unpackaged (qualifier : String) :
      Item.types qualifier ((file.imports.map (·.toSyntax)).map .imports ++
          (WrittenMember.toSyntaxes (file.head.length + 1) (file.classes.map (·.toMember))).map .member) =
        WrittenMember.typesFrom qualifier none (file.head.length + 1) (file.classes.map (·.toMember)) := by
    rw [Item.types_imports, Item.types_members, WrittenMember.typesOf_toSyntaxes]
  rw [items, List.append_assoc, packageText]
  cases file.package with
  | none => exact unpackaged ""
  | some name =>
      rw [Option.toList_some, List.map_singleton, List.singleton_append, Item.types, name.erase_text]
      exact unpackaged name.text

theorem ofItems_items (path : String) :
    SourceFile.ofItems path file.text file.items = file.toSourceFile path := by
  rw [SourceFile.ofItems, package_items, imports_items, types_items]
  rfl

end WrittenFile

end CallContext.Java
