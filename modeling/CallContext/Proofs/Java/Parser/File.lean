import CallContext.Java.Parser
import CallContext.Proofs.Java.Parser.Declaration

/-!
Reading files. Each layer of the grammar reads one token more than the layer below, so the grammar for a
text has more layers than the text can use.
-/

namespace CallContext.Java

open Piece

namespace Grammar

variable {grammar : Grammar} {limit depth size : Nat}

@[simp] theorem ofDepth_limit : (ofDepth limit depth).limit = limit := by
  cases depth <;> rfl

theorem reads_zero (refuses : ∀ (place : Place) (rest : List Token),
    ∃ left, grammar.type (place.sign .openParenthesis :: rest) = .failure left) : grammar.Reads 0 where
  types :=
    { reads := fun type _ _ small => by
        obtain ⟨rest, begun⟩ := type.pieces_eq_cons
        rw [begun] at small
        cases small
      refuses := refuses }
  expressions :=
    { operands := fun operand _ _ _ small =>
        absurd operand.begins_pieces.weight_pos (Nat.not_lt_of_le small)
      casts := fun _ _ _ _ small => by cases small }
  statements :=
    { calls := fun statement _ _ small => by simp [CallStatement.pieces] at small
      blocks := fun _ _ _ _ _ small => by cases small }
  bodies := fun _ _ _ _ _ small => by cases small

theorem ofDepth_refuses (place : Place) (rest : List Token) :
    ∃ left, (ofDepth limit depth).type (place.sign .openParenthesis :: rest) = .failure left := by
  cases depth with
  | zero => exact ⟨_, rfl⟩
  | succ depth =>
      refine ⟨place.sign .openParenthesis :: rest, ?_⟩
      simp [ofDepth, Parser.typeRule, Parser.unannotatedType, Parser.simpleType]

theorem reads_ofDepth_succ (reads : (ofDepth limit depth).Reads size) (enough : size < limit) :
    (ofDepth limit (depth + 1)).Reads (size + 1) where
  types :=
    { reads := fun type place _ small ends =>
        Parser.typeRule_reads reads.types small (by simp; omega) place ends
      refuses := ofDepth_refuses }
  expressions :=
    { operands := fun operand strength place rest small ends => by
        have noType : Parser.typeNotationAhead rest = false := by cases ends <;> rfl
        have read := Parser.operand_reads reads.types reads.expressions (by simpa using enough) operand
          place small (.ends ends) noType (Parser.suffixes_ends _ _ _ ends)
        exact Parser.expressionRule_of_operand read ends strength
      casts := fun type value place rest small ends =>
        Parser.expressionRule_of_operand
          (Parser.operand_cast reads.types reads.expressions small place ends) ends 0 }
  statements :=
    { calls := fun statement place _ small =>
        Parser.statementRule_call reads.types reads.expressions (by simp; omega) statement place small
      blocks := fun body place inner last _ small =>
        Parser.statementRule_block reads.statements (by simp; omega) body place inner last small }
  bodies := fun members place inner last _ small =>
    Parser.classBodyRule_reads reads (by simp; omega) members place inner last small

theorem reads_ofDepth (enough : size ≤ depth) (bounded : size ≤ limit) :
    (ofDepth limit depth).Reads size := by
  -- The layer below has to read one token less, and none at all if there is none.
  induction depth generalizing size with
  | zero =>
      obtain rfl := Nat.le_zero.mp enough
      exact reads_zero ofDepth_refuses
  | succ depth ih =>
      cases size with
      | zero => exact reads_zero ofDepth_refuses
      | succ size =>
        exact reads_ofDepth_succ (ih (Nat.le_of_succ_le_succ enough) (Nat.le_of_succ_le bounded)) bounded

end Grammar

namespace Parser

variable {grammar : Grammar} {size : Nat} {rest tokens : List Token}

def EndsDottedName (rest : List Token) : Prop :=
  ∀ limit, nameTail limit rest = .success [] rest

theorem endsDottedName_semicolon (place : Place) (rest : List Token) :
    EndsDottedName (place.sign .semicolon :: rest) := by
  intro limit
  match limit, rest with
  | 0, _ | _ + 1, [] | _ + 1, _ :: _ => rfl

theorem endsDottedName_star (place next : Place) (rest : List Token) :
    EndsDottedName (place.sign .dot :: next.sign .star :: rest) := by
  intro limit
  match limit with
  | 0 | _ + 1 => rfl

theorem nameTail_reads (others : List FreeName) {limit : Nat} (fuel : others.length ≤ limit)
    (place : Place) (ends : EndsDottedName rest) :
    nameTail limit (place.lay (others.flatMap DottedName.dotted) ++ rest) =
      .success (place.lay (others.flatMap DottedName.dotted)) rest := by
  induction others generalizing limit place with
  | nil => exact ends limit
  | cons other others ih =>
      obtain ⟨limit, rfl⟩ := Nat.exists_eq_add_of_le' fuel
      have later := ih (Nat.le_add_left others.length limit) place.next.next
      rw [List.length_cons, ← Nat.add_assoc, List.flatMap_cons]
      simp [DottedName.dotted, nameTail, later]

theorem dottedName_reads (name : DottedName) {limit : Nat} (fuel : weight name.pieces ≤ limit)
    (place : Place) (ends : EndsDottedName rest) :
    dottedName limit (place.lay name.pieces ++ rest) = .success (place.lay name.pieces) rest := by
  have few := length_le_dotted name.others
  rw [DottedName.pieces, weight] at fuel
  have tail := nameTail_reads name.others (by omega : name.others.length ≤ limit) place.next ends
  simp [dottedName, DottedName.pieces, tail]

theorem spell_dottedName (name : DottedName) (place : Place) :
    Token.spell (place.lay name.pieces) = name.text := by
  have apart : areApart (name.pieces ++ []) := name.areApart_pieces rfl
  have spelled := name.spell_pieces
  rw [List.append_nil, DottedName.pieces] at apart
  rw [DottedName.pieces] at spelled ⊢
  rw [Place.spell_lay apart, spelled, String.ofList_toList]

theorem fileItem_introduced {id : Identifier} (introducing : id.text ∈ ["import", "package", "class"])
    (place : Place) :
    fileItem grammar (place.word id :: tokens) = itemRule grammar (place.word id :: tokens) := by
  have ruledOut : rulesOutMethod grammar (place.word id) = true := by
    simp only [List.mem_cons, List.not_mem_nil, or_false] at introducing
    rcases introducing with same | same | same <;>
      simp [rulesOutMethod, Token.isOneOf, introducesType, same]
  simp [fileItem, ruledOut]

theorem importRule_reads (declared : WrittenImport) (fuel : weight declared.pieces ≤ grammar.limit)
    (place : Place) :
    importRule grammar (place.lay declared.pieces ++ rest) =
      .success (.imports declared.toSyntax) rest := by
  obtain ⟨path, isStatic, wildcard⟩ := declared
  have few : weight path.pieces ≤ grammar.limit := by
    simp [WrittenImport.pieces] at fuel
    omega
  have plain (next last : Place) :=
    dottedName_reads path few next (endsDottedName_semicolon last rest)
  have starred (next middle last : Place) := dottedName_reads path few next
    (endsDottedName_star middle middle.next (last.sign .semicolon :: rest))
  have free : path.first.text ≠ "static" := path.first.text_ne (by decide)
  have dynamic (next : Place) (tokens : List Token) := optionalWord_of_not
    (by simpa using free : (next.lay path.pieces ++ tokens).head?.any (·.isWord "static") = false)
  cases isStatic <;> cases wildcard
  all_goals
    simp [importRule, WrittenImport.pieces, Identifier.importWord, Identifier.staticWord, plain, starred,
      dynamic, spell_dottedName, WrittenImport.toSyntax]

theorem fileItem_import (declared : WrittenImport) (fuel : weight declared.pieces ≤ grammar.limit)
    (place : Place) :
    fileItem grammar (place.lay declared.pieces ++ rest) =
      .success (.imports declared.toSyntax) rest := by
  have item (tokens : List Token) : itemRule grammar (place.word .importWord :: tokens) =
      importRule grammar (place.word .importWord :: tokens) := by
    simp [itemRule, Identifier.importWord, introduced]
  exact (fileItem_introduced (by decide) place).trans
    ((item _).trans (importRule_reads declared fuel place))

theorem fileItem_modified {id : Identifier} (introducing : id.text ∈ ["package", "class"])
    (place : Place) :
    fileItem grammar (place.word id :: tokens) = modifiedItem grammar .none (place.word id :: tokens) := by
  have unmodified : ∀ word ∈ ["package", "class"], word ∉ modifierWords := by decide
  have plain : modifiers grammar (place.word id :: tokens) = .success .none (place.word id :: tokens) :=
    modifiers_none (isModifier_word (unmodified _ introducing) place)
  rw [fileItem_introduced (List.mem_cons_of_mem _ introducing)]
  simp only [List.mem_cons, List.not_mem_nil, or_false] at introducing
  rcases introducing with same | same <;>
    simp [itemRule, introduced, same, plain, Token.isOneOf, introducesType]

theorem fileItem_package (name : DottedName)
    (fuel : weight (WrittenFile.packagePieces name) ≤ grammar.limit) (place : Place) :
    fileItem grammar (place.lay (WrittenFile.packagePieces name) ++ rest) =
      .success (.package name.text) rest := by
  have few : weight name.pieces ≤ grammar.limit := by
    simp [WrittenFile.packagePieces] at fuel
    omega
  have read (next last : Place) :=
    dottedName_reads name few next (endsDottedName_semicolon last rest)
  have item (tokens : List Token) : modifiedItem grammar .none (place.word .packageWord :: tokens) =
      packageTail grammar (place.word .packageWord :: tokens) := by
    have noRecord : recordAhead (place.word .packageWord :: tokens) = false :=
      recordAhead_word (by decide) place
    simp only [Identifier.packageWord] at noRecord
    simp [modifiedItem, Identifier.packageWord, introducesType, Token.isOneOf, Modifiers.none, noRecord]
  refine (fileItem_modified (by decide) place).trans ((item _).trans ?_)
  simp [packageTail, Identifier.packageWord, read, spell_dottedName]

theorem fileItem_class (reads : grammar.Reads size) (declared : WrittenClass)
    (small : weightLines declared.toMember.pieceLines ≤ size + 1) (place : Place) :
    fileItem grammar (place.layLines declared.toMember.pieceLines ++ rest) =
      .success (.member (declared.toMember.toSyntax place.line)) rest := by
  have item (tokens : List Token) : modifiedItem grammar .none (place.word .classWord :: tokens) =
      (do return Item.member (← memberAfter grammar (memberRule grammar grammar.limit) .classBody
        (place.word .classWord) .none)) (place.word .classWord :: tokens) := by
    simp [modifiedItem, Identifier.classWord, introducesType, Token.isOneOf]
  have read := memberAfter_class reads (memberRule grammar grammar.limit) declared.name
    declared.superclass declared.members small .classBody (place.word .classWord) place rest
  exact (fileItem_modified (by decide) place).trans ((item _).trans (bind_of_success read))

theorem fileItems_layLines {ι : Type} (lines : ι → List (List Piece)) (value : Place → ι → Item)
    {items : List ι} {limit : Nat} (enough : items.length < limit)
    (solid : ∀ item ∈ items, 0 < weightLines (lines item))
    (reads : ∀ item ∈ items, ∀ (place : Place) more,
      fileItem grammar (place.layLines (lines item) ++ more) = .success (value place item) more)
    (place : Place) :
    fileItems grammar limit (place.layLines (items.flatMap lines)) =
      .success (place.collectLines lines value items) [] := by
  induction items generalizing limit place with
  | nil =>
      obtain ⟨limit, rfl⟩ := Nat.exists_eq_succ_of_ne_zero (Nat.ne_of_gt enough)
      rfl
  | cons item items ih =>
      obtain ⟨limit, rfl⟩ := Nat.exists_eq_succ_of_ne_zero (Nat.ne_zero_of_lt enough)
      have later (place : Place) : fileItems grammar limit (place.layLines (items.flatMap lines)) =
          .success (place.collectLines lines value items) [] :=
        ih (Nat.lt_of_succ_lt_succ enough)
          (fun other member => solid other (List.mem_cons_of_mem _ member))
          (fun other member => reads other (List.mem_cons_of_mem _ member)) place
      have first := reads item List.mem_cons_self place
      have begun := solid item List.mem_cons_self
      rw [← place.length_layLines] at begun
      obtain ⟨token, tokens, laid⟩ := List.exists_cons_of_length_pos begun
      rw [List.flatMap_cons, Place.layLines_append]
      rw [laid] at first ⊢
      simp only [List.cons_append] at first ⊢
      simp [fileItems, first, later, Place.collectLines]

theorem fileItem_reads (reads : grammar.Reads size) (enough : size ≤ grammar.limit) (item : WrittenItem)
    (small : weightLines item.pieceLines ≤ size) (place : Place) :
    fileItem grammar (place.layLines item.pieceLines ++ rest) =
      .success (item.toSyntax place.line) rest := by
  cases item with
  | package name =>
      have fuel : weight (WrittenFile.packagePieces name) ≤ grammar.limit := by
        rw [WrittenItem.pieceLines, weightLines_cons] at small
        exact Nat.le_trans (Nat.le_of_add_right_le small) enough
      rw [WrittenItem.pieceLines, Place.layLines_singleton, fileItem_package name fuel]
      rfl
  | imports declared =>
      have fuel : weight declared.pieces ≤ grammar.limit := by
        rw [WrittenItem.pieceLines, weightLines_cons] at small
        exact Nat.le_trans (Nat.le_of_add_right_le small) enough
      rw [WrittenItem.pieceLines, Place.layLines_singleton, fileItem_import declared fuel]
      rfl
  | type declared => exact fileItem_class reads declared (Nat.le_succ_of_le small) place

def itemAt (place : Place) (item : WrittenItem) : Item :=
  item.toSyntax place.line

theorem collectLines_headItems (file : WrittenFile) (place : Place) :
    place.collectLines WrittenItem.pieceLines itemAt file.headItems =
      file.package.toList.map (.package ·.text) ++ (file.imports.map (·.toSyntax)).map .imports := by
  rw [WrittenFile.headItems, Place.collectLines_append, Place.collectLines_map, Place.collectLines_map,
    List.map_map]
  exact congrArg₂ _ (Place.collectLines_const _ _ _ _) (Place.collectLines_const _ _ _ _)

theorem collectLines_classes (classes : List WrittenClass) (place : Place) :
    place.collectLines WrittenItem.pieceLines itemAt (classes.map .type) =
      (WrittenMember.toSyntaxes place.line (classes.map (·.toMember))).map .member := by
  rw [← collectLines_members, Place.collectLines_map, Place.collectLines_map, Place.map_collectLines]
  rfl

theorem collectLines_items (file : WrittenFile) :
    Place.beginning.collectLines WrittenItem.pieceLines itemAt file.writtenItems = file.items := by
  have length : (file.headItems.flatMap (·.pieceLines)).length = file.head.length := by
    simp [← WrittenFile.headPieces_eq, WrittenFile.headPieces, WrittenFile.head]
  have line : (Place.afterLines .beginning (file.headItems.flatMap (·.pieceLines))).line =
      file.head.length + 1 := by
    rw [Place.afterLines_line, length]
    exact Nat.add_comm _ _
  rw [WrittenFile.writtenItems, Place.collectLines_append, collectLines_headItems, collectLines_classes,
    line, WrittenFile.items]

theorem file_reads (file : WrittenFile) :
    Parser.file (Place.beginning.layLines file.pieceLines) = .success file.items [] := by
  have solid (item : WrittenItem) : 0 < weightLines item.pieceLines := by
    cases item with
    | package name => simp [WrittenItem.pieceLines, WrittenFile.packagePieces]
    | imports declared => simp [WrittenItem.pieceLines, WrittenImport.pieces]
    | type declared =>
        rw [WrittenItem.pieceLines, WrittenClass.toMember, WrittenMember.pieceLines, weightLines_cons,
          weight_append, weight]
        omega
  have fuel : file.writtenItems.length ≤ weightLines (file.writtenItems.flatMap (·.pieceLines)) :=
    length_le_weightLines _ fun item _ => solid item
  rw [Parser.file, Place.length_layLines, WrittenFile.pieceLines_eq, ← collectLines_items]
  refine fileItems_layLines WrittenItem.pieceLines _ ?_ (fun item _ => solid item) ?_ .beginning
  · simpa [Grammar.ofSize] using Nat.lt_succ_of_le fuel
  · intro item member place more
    have reads : (Grammar.ofSize (weightLines (file.writtenItems.flatMap (·.pieceLines)))).Reads
        (weightLines (file.writtenItems.flatMap (·.pieceLines))) :=
      Grammar.reads_ofDepth (by omega) (by omega)
    exact fileItem_reads reads (by simp [Grammar.ofSize]) item
      (weightLines_le_flatMap WrittenItem.pieceLines member) place

end Parser

theorem parseSource_text (file : WrittenFile) : parseSource file.text = .ok file.items := by
  rw [parseSource, file.toList_text, Lexer.tokens_spellLines file.areApart_of_mem_pieceLines,
    Parser.file_reads]

end CallContext.Java
