import CallContext.Java.Parser.Statement
import CallContext.Proofs.Java.Parser.Expression
import CallContext.Proofs.Java.Written.Syntax

/-!
Reading statements. A statement that begins with a name could declare variables until the parenthesis of
its call is reached, so the type before that parenthesis is read first and given up.
-/

namespace CallContext.Java

open Piece

structure Grammar.ReadsStatements (grammar : Grammar) (size : Nat) : Prop where
  calls : ∀ (statement : CallStatement) (place : Place) {rest : List Token},
    weight statement.pieces ≤ size →
      grammar.statement (place.lay statement.pieces ++ rest) =
        .success (statement.operand.code place.line) rest
  blocks : ∀ (body : List CallStatement) (place inner last : Place) (rest : List Token),
    weightLines (body.map (·.pieces)) + 2 ≤ size →
      grammar.statement (place.sign .openBrace ::
          (inner.layLines (body.map (·.pieces)) ++ last.sign .closeBrace :: rest)) =
        .success (.other (CallStatement.codesFrom inner.line body)) rest

def itemWords : List String :=
  ["if", "while", "do", "for", "try", "break", "continue", "return", "throw", "assert", "switch",
    "synchronized", "yield", "import", "sealed", "class", "interface", "enum", "record", "module", "open",
    "package"] ++ modifierWords

namespace Parser

variable {grammar : Grammar} {size : Nat} {rest tokens : List Token}

@[simp] theorem firstToken_cons (first : Token) :
    firstToken (first :: tokens) = .success first (first :: tokens) := rfl

theorem nextWordThen_lay {pieces : List Piece} {sign : String}
    (other : ∀ mark, .sign mark ∈ pieces → mark.text ≠ sign) (two : 2 ≤ weight pieces) (place : Place) :
    nextWordThen sign (place.lay pieces ++ rest) = .success false (place.lay pieces ++ rest) := by
  have apart : ∀ token ∈ place.lay pieces, token.isSymbol sign = false :=
    fun _ member => place.not_isSymbol_of_mem_lay other member
  rw [← place.length_lay] at two
  match place.lay pieces, two, apart with
  | _ :: second :: _, _, apart => simp [nextWordThen, apart second]

theorem introduced_eq_none (grammar : Grammar) {word : String} (other : word ∉ itemWords) :
    introduced grammar word = none := by
  unfold introduced
  split <;> first | rfl | simp [itemWords] at other

theorem recordAhead_word {id : Identifier} (other : id.text ≠ "record") (place : Place) :
    recordAhead (place.word id :: tokens) = false := by
  match tokens with
  | [] | [_] => rfl
  | _ :: _ :: _ => simp [recordAhead, other]

theorem moduleAhead_word {id : Identifier} (other : id.text ≠ "module" ∧ id.text ≠ "open")
    (place : Place) :
    moduleAhead (place.word id :: tokens) = false := by
  match tokens with
  | [] => rfl
  | _ :: _ => simp [moduleAhead, other]

theorem itemRule_word {id : Identifier} (other : id.text ∉ itemWords) (place : Place) :
    itemRule grammar (place.word id :: tokens) =
      (do return Item.code (← plainStatement grammar (place.word id))) (place.word id :: tokens) := by
  have plain := introduced_eq_none grammar other
  simp [itemWords, modifierWords] at other
  simp [itemRule, plain, other, Token.isModifier, Token.isOneOf, modifierWords, introducesType,
    recordAhead_word, moduleAhead_word]

theorem itemRule_openParenthesis (place : Place) :
    itemRule grammar (place.sign .openParenthesis :: tokens) =
      (do return Item.code (← plainStatement grammar (place.sign .openParenthesis)))
        (place.sign .openParenthesis :: tokens) := by
  have noRecord : recordAhead (place.sign .openParenthesis :: tokens) = false := by
    match tokens with
    | [] | [_] | _ :: _ :: _ => rfl
  have noModule : moduleAhead (place.sign .openParenthesis :: tokens) = false := by
    match tokens with
    | [] | _ :: _ => rfl
  simp [itemRule, Token.isModifier, introducesType, noRecord, noModule]

theorem localsTail_called (types : grammar.ReadsTypes size) (enough : size ≤ grammar.limit)
    {name : DottedName} (small : weight name.pieces ≤ size + 1) (before : Modifiers) (place last : Place) :
    ∃ left, localsTail grammar before
      (place.lay name.pieces ++ last.sign .openParenthesis :: tokens) = .failure left := by
  rw [← WrittenType.pieces_named] at small ⊢
  have ends : EndsType (last.sign .openParenthesis :: tokens) := endsType_sign (by decide) last tokens
  have read := unannotatedType_reads types small enough place ends
  refine ⟨last.sign .openParenthesis :: tokens, ?_⟩
  simp [localsTail, read, declarators, separated, declarator, variableName]

theorem simpleStatement_cons (first : Token) :
    simpleStatement grammar (first :: tokens) =
      if beginsWithType first then
        orElse (localsTail grammar ⟨[], []⟩) (expressionStatement grammar) (first :: tokens)
      else expressionStatement grammar (first :: tokens) := by
  simp [simpleStatement]

theorem simpleStatement_of_begins (types : grammar.ReadsTypes size) (enough : size ≤ grammar.limit)
    {pieces : List Piece} (begins : Operand.Begins true pieces) (small : weight pieces ≤ size + 1)
    (place : Place) {code : Code} {left : List Token}
    (read : expressionStatement grammar (place.lay pieces ++ rest) = .success code left) :
    simpleStatement grammar (place.lay pieces ++ rest) = .success code left := by
  cases begins with
  | @keyword _ id more listed =>
      have begun : id.text ∈ expressionWords :=
        (by decide : ∀ word ∈ ["this", "new", "super"], word ∈ expressionWords) _ listed
      simpa [simpleStatement, beginsWithType, Place.word_isOneOf _ begun] using read
  | parenthesis => simpa [simpleStatement, beginsWithType] using read
  | called name more =>
      have free : ∀ word ∈ expressionWords ++ softWords, word ∈ reservedWords := free_castWords
      have begun : beginsWithType (place.word name.first.toIdentifier) = true := by
        simp [beginsWithType, name.first.isOneOf_word (List.forall_mem_append.mp free).1,
          name.first.isOneOf_word (List.forall_mem_append.mp free).2]
      rw [weight_append] at small
      -- The name could be a type until the parenthesis fits no variable.
      obtain ⟨left, refused⟩ := localsTail_called types enough (Nat.le_trans (Nat.le_add_right _ _) small)
        ⟨[], []⟩ place (place.after name.pieces)
      rw [Place.lay_append, List.append_assoc] at read ⊢
      have opened (tokens : List Token) :
          simpleStatement grammar (place.word name.first.toIdentifier :: tokens) =
            orElse (localsTail grammar ⟨[], []⟩) (expressionStatement grammar)
              (place.word name.first.toIdentifier :: tokens) := by
        rw [simpleStatement_cons, if_pos begun]
      exact (opened _).trans (orElse_of_failure refused read)

theorem plainStatement_lay {pieces : List Piece} (two : 2 ≤ weight pieces) (first : Token)
    (place : Place) :
    plainStatement grammar first (place.lay pieces ++ rest) =
      simpleStatement grammar (place.lay pieces ++ rest) := by
  have noColon : ∀ mark : Sign, mark.text ≠ ":" := by rintro ⟨⟩ <;> decide
  simp [plainStatement, nextWordThen_lay (fun mark _ => noColon mark) two place]

theorem itemRule_of_begins {pieces : List Piece} (begins : Operand.Begins true pieces)
    (two : 2 ≤ weight pieces) (place : Place) {code : Code} {left : List Token}
    (read : simpleStatement grammar (place.lay pieces ++ rest) = .success code left) :
    itemRule grammar (place.lay pieces ++ rest) = .success (.code code) left := by
  have plain (first : Token) : (do return Item.code (← plainStatement grammar first))
      (place.lay pieces ++ rest) = .success (.code code) left := by
    rw [bind_apply, plainStatement_lay two, read]
    rfl
  cases begins with
  | @keyword _ id more listed =>
      have other : id.text ∉ itemWords :=
        (by decide : ∀ word ∈ ["this", "new", "super"], word ∉ itemWords) _ listed
      exact (itemRule_word other place).trans (plain _)
  | parenthesis => exact (itemRule_openParenthesis place).trans (plain _)
  | called name more =>
      have other : name.first.text ∉ itemWords := fun member =>
        name.first.free ((by decide : ∀ word ∈ itemWords, word ∈ reservedWords) _ member)
      exact (itemRule_word other place).trans (plain _)

theorem statementRule_call (types : grammar.ReadsTypes size) (expressions : grammar.ReadsExpressions size)
    (enough : size ≤ grammar.limit) (statement : CallStatement) (place : Place)
    (small : weight statement.pieces ≤ size + 1) :
    statementRule grammar (place.lay statement.pieces ++ rest) =
      .success (statement.operand.code place.line) rest := by
  have begins : Operand.Begins true statement.pieces := by
    have begun := statement.operand.begins_pieces
    rw [statement.isCall] at begun
    exact begun.append_right _
  have two : 2 ≤ weight statement.pieces := by
    rw [CallStatement.pieces, weight_append]
    exact Nat.add_le_add statement.operand.begins_pieces.weight_pos (Nat.le_refl 1)
  have read : expressionStatement grammar (place.lay statement.pieces ++ rest) =
      .success (statement.operand.code place.line) rest := by
    rw [CallStatement.pieces, weight_append] at small
    have value (last : Place) := expressions.operands statement.operand 0 place
      (Nat.le_of_succ_le_succ small) (.semicolon last rest)
    simp [expressionStatement, CallStatement.pieces, value]
  have simple := simpleStatement_of_begins types enough begins small place read
  simp [statementRule, itemRule_of_begins begins two place simple, Item.toCode]

def statementLines (statement : CallStatement) : List (List Piece) :=
  [statement.pieces]

theorem collectLines_codes (body : List CallStatement) (place : Place) :
    place.collectLines statementLines (fun place statement => statement.operand.code place.line) body =
      CallStatement.codesFrom place.line body := by
  induction body generalizing place with
  | nil => rfl
  | cons first rest ih =>
      rw [Place.collectLines, ih, Place.afterLines_line, CallStatement.codesFrom]
      rfl

theorem statementRule_block (statements : grammar.ReadsStatements size) (enough : size ≤ grammar.limit)
    (body : List CallStatement) (place inner last : Place)
    (small : weightLines (body.map (·.pieces)) + 2 ≤ size + 1) :
    statementRule grammar (place.sign .openBrace ::
        (inner.layLines (body.map (·.pieces)) ++ last.sign .closeBrace :: rest)) =
      .success (.other (CallStatement.codesFrom inner.line body)) rest := by
  have lines : body.map (·.pieces) = body.flatMap statementLines := List.map_eq_flatMap
  rw [lines] at small ⊢
  have fuel : body.length ≤ weightLines (body.flatMap statementLines) :=
    length_le_weightLines _ fun statement _ => by simp [statementLines, CallStatement.pieces]
  have read : untilNext (·.isSymbol "\x7d") grammar.statement grammar.limit
      (inner.layLines (body.flatMap statementLines) ++ last.sign .closeBrace :: rest) =
        .success (CallStatement.codesFrom inner.line body) (last.sign .closeBrace :: rest) := by
    rw [← collectLines_codes]
    refine untilNext_layLines statementLines _ (by omega) ?_ ?_ rfl inner
    · intro statement _ place more
      rw [statementLines, Place.layLines_singleton, CallStatement.pieces, Place.lay_append,
        List.append_assoc]
      exact statement.operand.not_isSymbol_pieces (by decide) place _
    · intro statement member place more
      have within := weightLines_le_flatMap statementLines member
      rw [statementLines, weightLines_cons] at within
      rw [statementLines, Place.layLines_singleton]
      exact statements.calls statement place (by omega)
  simp [statementRule, itemRule, block, blockStatements, read, Item.toCode]

end Parser

end CallContext.Java
