import CallContext.Proofs.Java.Written.Declaration

namespace CallContext.Java

open Piece

namespace Identifier

def packageWord : Identifier := ⟨"package", by decide⟩

def importWord : Identifier := ⟨"import", by decide⟩

def staticWord : Identifier := ⟨"static", by decide⟩

def classWord : Identifier := ⟨"class", by decide⟩

def extendsWord : Identifier := ⟨"extends", by decide⟩

def void : Identifier := ⟨"void", by decide⟩

end Identifier

namespace CallStatement

def pieces (statement : CallStatement) : List Piece :=
  statement.operand.pieces ++ [.sign .semicolon]

theorem spell_pieces (statement : CallStatement) : spell statement.pieces = statement.text.toList := by
  simp [pieces, text, Operand.spell_pieces, chars, Sign.char]

theorem areApart_pieces (statement : CallStatement) : areApart statement.pieces :=
  statement.operand.areApart_pieces rfl

end CallStatement

namespace WrittenParameter

def pieces (parameter : WrittenParameter) : List Piece :=
  parameter.type.pieces ++ [.space, .word parameter.name.toIdentifier]

theorem spell_pieces (parameter : WrittenParameter) : spell parameter.pieces = parameter.text.toList := by
  simp [pieces, text, WrittenType.spell_pieces, chars]

theorem areApart_pieces (parameter : WrittenParameter) {rest : List Piece} (follows : mayFollow rest) :
    areApart (parameter.pieces ++ rest) := by
  rw [pieces, List.append_assoc]
  exact parameter.type.areApart_pieces (by simpa using follows)

def listPieces : List WrittenParameter → List Piece
  | [] => []
  | first :: rest => first.pieces ++ afterCommas pieces rest

theorem spell_listPieces (parameters : List WrittenParameter) :
    spell (listPieces parameters) = (Text.joinWith ", " (parameters.map (·.text))).toList := by
  cases parameters with
  | nil => rfl
  | cons first rest =>
      rw [listPieces, spell_append, first.spell_pieces, spell_afterCommas, List.map_cons,
        Text.toList_joinWith_cons, List.flatMap_map]
      simp only [spell_pieces]

theorem mayFollow_afterCommas (parameters : List WrittenParameter) {rest : List Piece}
    (follows : mayFollow rest) : mayFollow (afterCommas pieces parameters ++ rest) := by
  induction parameters with
  | nil => exact follows
  | cons first others ih =>
      have inner := first.areApart_pieces ih
      obtain ⟨more, begun⟩ := first.type.pieces_eq_cons
      simp only [pieces, begun] at inner
      simpa [afterCommas, afterComma, pieces, begun, areApart_sign] using inner

theorem areApart_listPieces (parameters : List WrittenParameter) {rest : List Piece}
    (follows : mayFollow rest) : areApart (.sign .openParenthesis :: (listPieces parameters ++ rest)) := by
  rw [areApart_sign (by decide)]
  cases parameters with
  | nil => exact areApart_of_mayFollow follows
  | cons first others =>
      rw [listPieces, List.append_assoc]
      exact first.areApart_pieces (mayFollow_afterCommas others follows)

end WrittenParameter

namespace WrittenMethod

variable (method : WrittenMethod)

def returnPieces (returned : Option WrittenType) : List Piece :=
  (returned.map (·.pieces)).getD [.word .void]

def headingPieces : List Piece :=
  returnPieces method.returnType ++ .space :: .word method.name.toIdentifier :: .sign .openParenthesis ::
    (WrittenParameter.listPieces method.parameters ++ [.sign .closeParenthesis, .space])

def pieceLines : List (List Piece) :=
  if method.body.isEmpty then
    [method.headingPieces ++ [.sign .openBrace, .space, .sign .closeBrace]]
  else
    (method.headingPieces ++ [.sign .openBrace]) ::
      (method.body.map (·.pieces) ++ [[.sign .closeBrace]])

theorem spell_returnPieces : spell (returnPieces method.returnType) = method.returnText.toList := by
  rw [returnText, returnPieces]
  cases method.returnType with
  | none => simp [chars, Identifier.void]
  | some type => exact type.spell_pieces

theorem spell_headingPieces :
    spell (method.headingPieces ++ [.sign .openBrace]) = method.heading.toList := by
  rw [headingPieces, heading]
  simp [chars, Sign.char, spell_returnPieces, WrittenParameter.spell_listPieces]

theorem spell_pieceLines : method.pieceLines.map spell = method.lines.map (·.toList) := by
  have heading := method.spell_headingPieces
  rw [pieceLines, lines]
  split
  · have longer : [Piece.sign .openBrace, .space, .sign .closeBrace] =
        [.sign .openBrace] ++ [.space, .sign .closeBrace] := rfl
    rw [longer, ← List.append_assoc, List.map_singleton, spell_append, heading]
    simp [chars, Sign.char]
  · simp only [List.map_cons, heading]
    simp [chars, Sign.char, CallStatement.spell_pieces]

theorem layLines_pieceLines (place : Place) :
    ∃ inner last, inner.line = place.line + 1 ∧
      place.layLines method.pieceLines = place.lay method.headingPieces ++
        (place.after method.headingPieces).sign .openBrace ::
          (Place.layLines inner (method.body.map (·.pieces)) ++ [Place.sign last .closeBrace]) := by
  rw [pieceLines]
  split
  · rename_i none
    rw [List.isEmpty_iff.mp none, Place.layLines_singleton, Place.lay_append]
    refine ⟨place.newline, (place.after method.headingPieces).next.space, place.newline_line, ?_⟩
    simp [Place.layLines]
  · exact place.layLines_block method.headingPieces (method.body.map (·.pieces))

theorem weightLines_pieceLines : weightLines method.pieceLines =
    weight method.headingPieces + (weightLines (method.body.map (·.pieces)) + 2) := by
  rw [pieceLines]
  split
  · rename_i none
    simp [List.isEmpty_iff.mp none]
  · simp
    omega

theorem areApart_headingPieces {rest : List Piece} (follows : areApart rest) :
    areApart (method.headingPieces ++ .sign .openBrace :: rest) := by
  have closed : areApart (.sign .openParenthesis :: (WrittenParameter.listPieces method.parameters ++
      .sign .closeParenthesis :: .space :: .sign .openBrace :: rest)) :=
    WrittenParameter.areApart_listPieces _ (by simpa [areApart_sign] using follows)
  cases returned : method.returnType with
  | none => simpa [headingPieces, returnPieces, returned] using closed
  | some type =>
      have inner : areApart (type.pieces ++ .space :: .word method.name.toIdentifier ::
          .sign .openParenthesis :: (WrittenParameter.listPieces method.parameters ++
            .sign .closeParenthesis :: .space :: .sign .openBrace :: rest)) :=
        type.areApart_pieces (by simpa using closed)
      simpa [headingPieces, returnPieces, returned] using inner

theorem areApart_of_mem_pieceLines : ∀ line ∈ method.pieceLines, areApart line := by
  intro line member
  rw [pieceLines] at member
  split at member
  · exact List.mem_singleton.mp member ▸ method.areApart_headingPieces rfl
  · simp only [List.mem_cons, List.mem_append, List.mem_map, List.not_mem_nil, or_false] at member
    obtain rfl | ⟨statement, -, rfl⟩ | rfl := member
    · exact method.areApart_headingPieces rfl
    · exact statement.areApart_pieces
    · rfl

end WrittenMethod

def classPieces (name : FreeName) (superclass : Option WrittenType) : List Piece :=
  .word .classWord :: .space :: .word name.toIdentifier ::
    ((superclass.map fun type => .space :: .word .extendsWord :: .space :: type.pieces).getD [] ++ [.space])

theorem spell_classPieces (name : FreeName) (superclass : Option WrittenType) :
    spell (classPieces name superclass ++ [.sign .openBrace]) = (classHeading name superclass).toList := by
  rw [classPieces, classHeading]
  cases superclass with
  | none => simp [chars, Sign.char, Identifier.classWord]
  | some type =>
      simp [chars, Sign.char, Identifier.classWord, Identifier.extendsWord, WrittenType.spell_pieces]

theorem areApart_classPieces (name : FreeName) (superclass : Option WrittenType) :
    areApart (classPieces name superclass ++ [.sign .openBrace]) := by
  cases superclass with
  | none => rfl
  | some type =>
      have inner : areApart (type.pieces ++ [.space, .sign .openBrace]) := type.areApart_pieces rfl
      obtain ⟨more, begun⟩ := type.pieces_eq_cons
      rw [begun] at inner
      simpa [classPieces, begun] using inner

namespace WrittenMember

mutual

def pieceLines : WrittenMember → List (List Piece)
  | field type name => [type.pieces ++ [.space, .word name.toIdentifier, .sign .semicolon]]
  | method declaration => declaration.pieceLines
  | nested name superclass members =>
    (classPieces name superclass ++ [.sign .openBrace]) :: (pieceLinesOf members ++ [[.sign .closeBrace]])

def pieceLinesOf : List WrittenMember → List (List Piece)
  | [] => []
  | first :: rest => first.pieceLines ++ pieceLinesOf rest

end

theorem linesOf_eq (members : List WrittenMember) : linesOf members = members.flatMap lines := by
  induction members with
  | nil => rfl
  | cons first rest ih => rw [linesOf, ih, List.flatMap_cons]

theorem pieceLinesOf_eq (members : List WrittenMember) :
    pieceLinesOf members = members.flatMap pieceLines := by
  induction members with
  | nil => rfl
  | cons first rest ih => rw [pieceLinesOf, ih, List.flatMap_cons]

mutual

theorem spell_pieceLines : ∀ member : WrittenMember,
    member.pieceLines.map spell = member.lines.map (·.toList)
  | field type name => by simp [pieceLines, lines, chars, Sign.char, WrittenType.spell_pieces]
  | method declaration => declaration.spell_pieceLines
  | nested name superclass members => by
    rw [pieceLines, lines, List.map_cons, spell_classPieces]
    simp [spell_pieceLinesOf members, chars, Sign.char]

theorem spell_pieceLinesOf : ∀ members : List WrittenMember,
    (pieceLinesOf members).map spell = (linesOf members).map (·.toList)
  | [] => rfl
  | first :: rest => by
    rw [pieceLinesOf, linesOf, List.map_append, List.map_append, spell_pieceLines first,
      spell_pieceLinesOf rest]

end

theorem length_pieceLines (member : WrittenMember) : member.pieceLines.length = member.lines.length := by
  simpa using congrArg List.length member.spell_pieceLines

mutual

theorem areApart_of_mem_pieceLines : ∀ member : WrittenMember, ∀ line ∈ member.pieceLines, areApart line
  | field type name, line, among => by
    rw [pieceLines, List.mem_singleton] at among
    exact among ▸ type.areApart_pieces rfl
  | method declaration, line, among => declaration.areApart_of_mem_pieceLines line among
  | nested name superclass members, line, among => by
    simp only [pieceLines, List.mem_cons, List.mem_append, List.not_mem_nil, or_false] at among
    obtain rfl | inside | rfl := among
    · exact areApart_classPieces name superclass
    · exact areApart_of_mem_pieceLinesOf members line inside
    · rfl

theorem areApart_of_mem_pieceLinesOf : ∀ members : List WrittenMember,
    ∀ line ∈ pieceLinesOf members, areApart line
  | [], _, among => by cases among
  | first :: rest, line, among => by
    rw [pieceLinesOf, List.mem_append] at among
    rcases among with inFirst | later
    · exact areApart_of_mem_pieceLines first line inFirst
    · exact areApart_of_mem_pieceLinesOf rest line later

end

end WrittenMember

theorem DottedName.areApart_pieces (name : DottedName) {rest : List Piece} (follows : mayFollow rest) :
    areApart (name.pieces ++ rest) := by
  have apart := (WrittenType.named name [] false).areApart_pieces follows
  rwa [WrittenType.pieces_named] at apart

@[simp] theorem DottedName.head?_lay_pieces (name : DottedName) (place : Place) :
    (place.lay name.pieces).head? = some (place.word name.first.toIdentifier) := rfl

namespace WrittenFile

def packagePieces (name : DottedName) : List Piece :=
  .word .packageWord :: .space :: (name.pieces ++ [.sign .semicolon])

theorem spell_packagePieces (name : DottedName) :
    spell (packagePieces name) = ("package " ++ name.text ++ ";").toList := by
  simp [packagePieces, chars, Sign.char, Identifier.packageWord, name.spell_pieces]

theorem areApart_packagePieces (name : DottedName) : areApart (packagePieces name) := by
  have apart : areApart (name.pieces ++ [.sign .semicolon]) := name.areApart_pieces rfl
  exact apart

end WrittenFile

namespace WrittenImport

def pieces (declared : WrittenImport) : List Piece :=
  .word .importWord :: .space :: ((if declared.isStatic then [.word .staticWord, .space] else []) ++
    (declared.path.pieces ++ ((if declared.wildcard then [.sign .dot, .sign .star] else []) ++
      [.sign .semicolon])))

theorem spell_pieces (declared : WrittenImport) : spell declared.pieces = declared.text.toList := by
  obtain ⟨path, isStatic, wildcard⟩ := declared
  cases isStatic <;> cases wildcard <;>
    simp [pieces, text, chars, Sign.char, Identifier.importWord, Identifier.staticWord, path.spell_pieces]

theorem areApart_pieces (declared : WrittenImport) : areApart declared.pieces := by
  obtain ⟨path, isStatic, wildcard⟩ := declared
  have plain : areApart (path.pieces ++ [.sign .semicolon]) := path.areApart_pieces rfl
  have starred : areApart (path.pieces ++ [.sign .dot, .sign .star, .sign .semicolon]) :=
    path.areApart_pieces rfl
  cases isStatic <;> cases wildcard
  · exact plain
  · exact starred
  · exact plain
  · exact starred

end WrittenImport

namespace WrittenFile

variable (file : WrittenFile)

def headPieces : List (List Piece) :=
  file.package.toList.map packagePieces ++ file.imports.map (·.pieces)

def pieceLines : List (List Piece) :=
  file.headPieces ++ WrittenMember.pieceLinesOf (file.classes.map (·.toMember))

theorem spell_pieceLines : file.pieceLines.map spell = file.lines.map (·.toList) := by
  have classes := WrittenMember.spell_pieceLinesOf (file.classes.map (·.toMember))
  rw [WrittenMember.linesOf_eq, List.flatMap_map] at classes
  simp [pieceLines, lines, headPieces, head, classes, spell_packagePieces, WrittenImport.spell_pieces,
    Function.comp_def]

theorem toList_text : file.text.toList = spellLines file.pieceLines := by
  have spelled : spellLines file.pieceLines = (file.pieceLines.map spell).flatMap (· ++ ['\n']) := by
    rw [spellLines, List.flatMap_map]
  rw [text, String.toList_join, spelled, spell_pieceLines, List.flatMap_map, List.flatMap_map]
  simp

theorem areApart_of_mem_pieceLines : ∀ line ∈ file.pieceLines, areApart line := by
  intro line among
  simp only [pieceLines, headPieces, List.mem_append, List.mem_map] at among
  obtain (⟨name, -, rfl⟩ | ⟨declared, -, rfl⟩) | inClasses := among
  · exact areApart_packagePieces name
  · exact declared.areApart_pieces
  · exact WrittenMember.areApart_of_mem_pieceLinesOf _ line inClasses

end WrittenFile

inductive WrittenItem where
  | package (name : DottedName)
  | imports (declared : WrittenImport)
  | type (declared : WrittenClass)

def WrittenItem.pieceLines : WrittenItem → List (List Piece)
  | package name => [WrittenFile.packagePieces name]
  | imports declared => [declared.pieces]
  | type declared => declared.toMember.pieceLines

namespace WrittenFile

variable (file : WrittenFile)

def headItems : List WrittenItem :=
  file.package.toList.map .package ++ file.imports.map .imports

def writtenItems : List WrittenItem :=
  file.headItems ++ file.classes.map .type

theorem headPieces_eq : file.headPieces = file.headItems.flatMap (·.pieceLines) := by
  rw [headPieces, headItems, List.flatMap_append, List.flatMap_map, List.flatMap_map,
    List.map_eq_flatMap, List.map_eq_flatMap]
  rfl

theorem pieceLines_eq : file.pieceLines = file.writtenItems.flatMap (·.pieceLines) := by
  rw [pieceLines, headPieces_eq, WrittenMember.pieceLinesOf_eq, writtenItems, List.flatMap_append,
    List.flatMap_map, List.flatMap_map]
  rfl

end WrittenFile

end CallContext.Java
