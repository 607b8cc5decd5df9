import CallContext.Java.Parser.Expression
import CallContext.Proofs.Java.Parser.Type
import CallContext.Proofs.Java.Written.Call

/-!
Reading calls. What follows an operand decides whether it is read as part of a larger one, so reading an
operand is described by what its suffixes make of it.
-/

namespace CallContext.Java

open Piece

inductive EndsExpression : List Token → Prop where
  | semicolon (place : Place) (more : List Token) : EndsExpression (place.sign .semicolon :: more)
  | comma (place : Place) (more : List Token) : EndsExpression (place.sign .comma :: more)
  | closeParenthesis (place : Place) (more : List Token) :
      EndsExpression (place.sign .closeParenthesis :: more)

inductive FollowsOperand : List Token → Prop where
  | dot (place : Place) (more : List Token) : FollowsOperand (place.sign .dot :: more)
  | ends {rest : List Token} (ends : EndsExpression rest) : FollowsOperand rest

theorem EndsExpression.not_isSymbol {rest : List Token} {sign : String} (ends : EndsExpression rest)
    (other : sign ∉ [";", ",", ")"]) : rest.head?.any (·.isSymbol sign) = false := by
  simp only [List.mem_cons, not_or] at other
  cases ends with
  | semicolon => exact beq_false_of_ne (Ne.symm other.1)
  | comma => exact beq_false_of_ne (Ne.symm other.2.1)
  | closeParenthesis => exact beq_false_of_ne (Ne.symm other.2.2.1)

theorem EndsExpression.endsType {rest : List Token} (ends : EndsExpression rest) : EndsType rest :=
  fun _ member => ends.not_isSymbol
    ((by decide : ∀ sign ∈ [".", "<", "[", "@"], sign ∉ [";", ",", ")"]) _ member)

namespace FollowsOperand

variable {rest : List Token} (follows : FollowsOperand rest)

include follows

theorem not_isSymbol {sign : String} (other : sign ∉ [".", ";", ",", ")"]) :
    rest.head?.any (·.isSymbol sign) = false := by
  rw [List.mem_cons, not_or] at other
  cases follows with
  | dot => exact beq_false_of_ne (Ne.symm other.1)
  | ends ends => exact ends.not_isSymbol other.2

theorem unsigned :
    rest.head?.any (fun token => token.isSymbol "+" || token.isSymbol "-") = false := by
  rcases follows with _ | ⟨_ | _ | _⟩ <;> rfl

theorem not_beginsOperand : rest.head?.any Parser.beginsOperand = false := by
  rcases follows with _ | ⟨_ | _ | _⟩ <;> rfl

end FollowsOperand

namespace Operand

def castPieces (type : WrittenType) (value : FreeName) : List Piece :=
  .sign .openParenthesis :: (type.pieces ++
    [.sign .closeParenthesis, .space, .word value.toIdentifier])

def isAssignable : Operand → Bool
  | name _ | field .. | superField _ => true
  | _ => false

def selections : Operand → Nat
  | field object _ => object.selections + 1
  | call object _ _ => object.selections + 1
  | superField _ | superCall .. => 1
  | _ => 0

end Operand

structure Grammar.ReadsExpressions (grammar : Grammar) (size : Nat) : Prop where
  operands : ∀ (operand : Operand) (strength : Nat) (place : Place) {rest : List Token},
    weight operand.pieces ≤ size → EndsExpression rest →
      grammar.expression strength true (place.lay operand.pieces ++ rest) =
        .success (operand.code place.line) rest
  casts : ∀ (type : WrittenType) (value : FreeName) (place : Place) {rest : List Token},
    weight (Operand.castPieces type value) ≤ size → EndsExpression rest →
      grammar.expression 0 true (place.lay (Operand.castPieces type value) ++ rest) =
        .success (.cast type.text [.name value.toIdentifier]) rest

namespace Parser

variable {grammar : Grammar} {size : Nat} {rest : List Token}

/-! ## Suffixes -/

theorem superCallAhead_ends (ends : EndsExpression rest) : superCallAhead rest = false := by
  rcases ends with ⟨_, _ | ⟨_, _ | _⟩⟩ | ⟨_, _ | ⟨_, _ | _⟩⟩ | ⟨_, _ | ⟨_, _ | _⟩⟩ <;> rfl

theorem superCallAhead_dotted (id : FreeName) (place : Place) (rest : List Token) :
    superCallAhead (place.lay (DottedName.dotted id) ++ rest) = false := by
  have other : id.text ≠ "super" := id.text_ne (by decide)
  cases rest <;> simp [superCallAhead, DottedName.dotted, other]

theorem suffixes_ends (line limit : Nat) (operand : Code × Bool) (ends : EndsExpression rest) :
    suffixes grammar line limit operand rest = .success operand rest := by
  cases limit with
  | zero => rfl
  | succ limit => simp [suffixes, superCallAhead_ends ends, ends.not_isSymbol]

theorem collect_code (operands : List Operand) (place : Place) :
    place.collect (afterComma Operand.pieces) (fun place operand => operand.code place.line) operands =
      Operand.codes place.line operands := by
  induction operands generalizing place with
  | nil => rfl
  | cons first rest ih => simp [Place.collect, afterComma, ih, Operand.codes]

theorem moreArguments_reads (expressions : grammar.ReadsExpressions size) {arguments : List Operand}
    (small : weight (Operand.commaPieces arguments) ≤ size) (enough : size ≤ grammar.limit)
    (place : Place) (stops : rest.head?.any (·.isSymbol ",") = false) (ends : EndsExpression rest) :
    whileNext (·.isSymbol ",") (do let _ ← symbol ","; grammar.expression 0 true) grammar.limit
        (place.lay (Operand.commaPieces arguments) ++ rest) =
      .success (Operand.codes place.line arguments) rest := by
  rw [Operand.commaPieces_eq] at small ⊢
  rw [← collect_code]
  refine whileNext_afterCommas _ _ small enough EndsExpression.comma ?_ stops ends place
  intro argument inner place more follows
  simpa using expressions.operands argument 0 place.next.space inner follows

theorem argumentList_reads (expressions : grammar.ReadsExpressions size) {arguments : List Operand}
    (small : weight (Operand.argumentPieces arguments) ≤ size + 2) (enough : size ≤ grammar.limit)
    (place : Place) (rest : List Token) :
    argumentList grammar (place.lay (Operand.argumentPieces arguments) ++ rest) =
      .success (Operand.codes place.line arguments) rest := by
  cases arguments with
  | nil => simp [argumentList, Operand.argumentPieces, listUntil, Operand.codes]
  | cons first others =>
      simp only [Operand.argumentPieces, weight, weight_append] at small
      have headSmall : weight first.pieces ≤ size := by omega
      have restSmall : weight (Operand.commaPieces others) ≤ size := by omega
      have closed (last : Place) : EndsExpression (last.sign .closeParenthesis :: rest) :=
        .closeParenthesis last rest
      have ends (middle last : Place) : EndsExpression
          (middle.lay (Operand.commaPieces others) ++ last.sign .closeParenthesis :: rest) := by
        rw [Operand.commaPieces_eq]
        exact follows_afterCommas Operand.pieces .comma (closed last) others middle
      have open' (tokens : List Token) := optionalSymbol_of_not
        (first.not_isSymbol_pieces (by decide : "(" ≠ ")") place.next tokens)
      have head (middle last : Place) :=
        expressions.operands first 0 place.next headSmall (ends middle last)
      have more (middle last : Place) :=
        moreArguments_reads expressions restSmall enough middle rfl (closed last)
      simp [argumentList, Operand.argumentPieces, listUntil, separated, open', head, more, Operand.codes]

theorem selection_field (grammar : Grammar) (id : FreeName) (object : Code) (line : Nat) (place : Place)
    (follows : FollowsOperand rest) :
    selection grammar object line (place.lay (DottedName.dotted id) ++ rest) =
      .success (.field object id.toIdentifier, true) rest := by
  have words : id.text ≠ "new" ∧ id.text ≠ "class" ∧ id.text ≠ "this" ∧ id.text ≠ "super" :=
    ⟨id.text_ne (by decide), id.text_ne (by decide), id.text_ne (by decide), id.text_ne (by decide)⟩
  simp [selection, DottedName.dotted, words, memberTail, follows.not_isSymbol, Stretch.plain]

theorem selection_call (expressions : grammar.ReadsExpressions size) (id : FreeName)
    {arguments : List Operand} (small : weight (Operand.argumentPieces arguments) ≤ size + 2)
    (enough : size ≤ grammar.limit) (object : Code) (line : Nat) (place : Place) (rest : List Token) :
    selection grammar object line
        (place.lay (DottedName.dotted id ++ Operand.argumentPieces arguments) ++ rest) =
      .success (.call object [] id.text (Operand.codes place.line arguments) line, false) rest := by
  have words : id.text ≠ "new" ∧ id.text ≠ "class" ∧ id.text ≠ "this" ∧ id.text ≠ "super" :=
    ⟨id.text_ne (by decide), id.text_ne (by decide), id.text_ne (by decide), id.text_ne (by decide)⟩
  have read := argumentList_reads expressions small enough place.next.next rest
  simp [selection, DottedName.dotted, words, memberTail, Stretch.plain, read]

theorem suffixes_field (grammar : Grammar) (id : FreeName) (operand : Code × Bool) (line limit : Nat)
    (place : Place) (follows : FollowsOperand rest) :
    suffixes grammar line (limit + 1) operand (place.lay (DottedName.dotted id) ++ rest) =
      suffixes grammar line limit (.field operand.1 id.toIdentifier, true) rest := by
  have read := selection_field grammar id operand.1 line place follows
  have noCall := superCallAhead_dotted id place rest
  simp only [DottedName.dotted, Place.lay, List.cons_append, List.nil_append] at read noCall ⊢
  simp [suffixes, noCall, read]

theorem suffixes_call (expressions : grammar.ReadsExpressions size) (id : FreeName)
    {arguments : List Operand} (small : weight (Operand.argumentPieces arguments) ≤ size + 2)
    (enough : size ≤ grammar.limit) (operand : Code × Bool) (line limit : Nat) (place : Place)
    (rest : List Token) :
    suffixes grammar line (limit + 1) operand
        (place.lay (DottedName.dotted id ++ Operand.argumentPieces arguments) ++ rest) =
      suffixes grammar line limit
        (.call operand.1 [] id.text (Operand.codes place.line arguments) line, false) rest := by
  have read := selection_call expressions id small enough operand.1 line place rest
  have noCall := superCallAhead_dotted id place (place.next.next.lay (Operand.argumentPieces arguments) ++ rest)
  simp only [DottedName.dotted, Place.lay, List.cons_append, List.nil_append] at read noCall ⊢
  simp [suffixes, noCall, read]

/-! ## Parentheses -/

theorem arrowAfterParentheses_lay {pieces : List Piece}
    (plain : ∀ mark, .sign mark ∈ pieces → mark ≠ .openParenthesis ∧ mark ≠ .closeParenthesis)
    (depth : Nat) (place : Place) :
    arrowAfterParentheses depth (place.lay pieces ++ rest) = arrowAfterParentheses depth rest := by
  induction pieces generalizing place with
  | nil => rfl
  | cons piece pieces ih =>
      have later := ih fun mark member => plain mark (List.mem_cons_of_mem _ member)
      cases piece with
      | space => exact later _
      | word id => simp [arrowAfterParentheses, later]
      | sign mark =>
          have texts : mark.text ≠ "(" ∧ mark.text ≠ ")" := by
            have other := plain mark List.mem_cons_self
            cases mark <;> simp at other ⊢
          simp [arrowAfterParentheses, texts, later]

theorem arrowAfterParentheses_type (type : WrittenType) (depth : Nat) (place : Place) :
    arrowAfterParentheses depth (place.lay type.pieces ++ rest) = arrowAfterParentheses depth rest := by
  have apart : ∀ mark ∈ WrittenType.signs, mark ≠ .openParenthesis ∧ mark ≠ .closeParenthesis := by decide
  exact arrowAfterParentheses_lay (fun mark member => apart mark (type.mem_signs member)) depth place

mutual

theorem arrowAfterParentheses_operand (depth : Nat) :
    ∀ (operand : Operand) (place : Place) {rest : List Token},
    arrowAfterParentheses (depth + 1) (place.lay operand.pieces ++ rest) =
      arrowAfterParentheses (depth + 1) rest
  | .this, _, _ => by simp [Operand.pieces, arrowAfterParentheses]
  | .name _, _, _ => by simp [Operand.pieces, arrowAfterParentheses]
  | .creation type arguments, _, _ => by
    simp [Operand.pieces, arrowAfterParentheses, arrowAfterParentheses_type]
  | .cast type value, _, _ => by
    simp [Operand.pieces, arrowAfterParentheses, arrowAfterParentheses_type]
  | .parenthesized inner, _, _ => by
    simp [Operand.pieces, arrowAfterParentheses, arrowAfterParentheses_operand _ inner]
  | .field object id, _, _ => by
    simp [Operand.pieces, DottedName.dotted, arrowAfterParentheses, arrowAfterParentheses_operand _ object]
  | .superField id, _, _ => by simp [Operand.pieces, DottedName.dotted, arrowAfterParentheses]
  | .call object id arguments, _, _ => by
    simp [Operand.pieces, DottedName.dotted, arrowAfterParentheses, arrowAfterParentheses_operand _ object,
      arrowAfterParentheses_argumentPieces _ arguments]
  | .superCall id arguments, _, _ => by
    simp [Operand.pieces, DottedName.dotted, arrowAfterParentheses,
      arrowAfterParentheses_argumentPieces _ arguments]
  | .ownCall id arguments, _, _ => by
    simp [Operand.pieces, arrowAfterParentheses, arrowAfterParentheses_argumentPieces _ arguments]

theorem arrowAfterParentheses_argumentPieces (depth : Nat) :
    ∀ (arguments : List Operand) (place : Place) {rest : List Token},
    arrowAfterParentheses (depth + 1) (place.lay (Operand.argumentPieces arguments) ++ rest) =
      arrowAfterParentheses (depth + 1) rest
  | [], _, _ => by simp [Operand.argumentPieces, arrowAfterParentheses]
  | first :: arguments, _, _ => by
    simp [Operand.argumentPieces, arrowAfterParentheses, arrowAfterParentheses_operand _ first,
      arrowAfterParentheses_commaPieces _ arguments]

theorem arrowAfterParentheses_commaPieces (depth : Nat) :
    ∀ (arguments : List Operand) (place : Place) {rest : List Token},
    arrowAfterParentheses (depth + 1) (place.lay (Operand.commaPieces arguments) ++ rest) =
      arrowAfterParentheses (depth + 1) rest
  | [], _, _ => rfl
  | first :: arguments, _, _ => by
    simp [Operand.commaPieces, arrowAfterParentheses, arrowAfterParentheses_operand _ first,
      arrowAfterParentheses_commaPieces _ arguments]

end

theorem signedNameAhead_lay (first : Token) (place last : Place) (pieces : List Piece)
    (plain : rest.head?.any (fun token => token.isSymbol "+" || token.isSymbol "-") = false) :
    signedNameAhead (first :: (place.lay pieces ++ last.sign .closeParenthesis :: rest)) = false := by
  have unsigned : ∀ token ∈ place.lay pieces,
      token.isSymbol "+" = false ∧ token.isSymbol "-" = false := fun _ member =>
    ⟨place.not_isSymbol_of_mem_lay (fun mark _ => by cases mark <;> decide) member,
      place.not_isSymbol_of_mem_lay (fun mark _ => by cases mark <;> decide) member⟩
  generalize place.lay pieces = tokens at unsigned ⊢
  -- The sign would be the fourth token, wherever that stands.
  match tokens, rest, plain with
  | [], [], _ | [], [_], _ | [], _ :: _ :: _, _ => rfl
  | [_], [], _ => rfl
  | [_], next :: _, plain => simp_all [signedNameAhead]
  | [_, _], _, _ => simp [signedNameAhead]
  | _ :: _ :: c :: _, _, _ => simp [signedNameAhead, unsigned c]

theorem free_castWords : ∀ word ∈ expressionWords ++ softWords, word ∈ reservedWords := by
  decide

theorem endsType_closeParenthesis (place : Place) (tokens : List Token) :
    EndsType (place.sign .closeParenthesis :: tokens) :=
  endsType_sign (by decide) place tokens

theorem castExpression_reads (types : grammar.ReadsTypes size)
    (expressions : grammar.ReadsExpressions size) {type : WrittenType} {value : FreeName}
    (small : weight (Operand.castPieces type value) ≤ size + 1) (place : Place)
    (ends : EndsExpression rest) :
    castExpression grammar true (place.lay (Operand.castPieces type value) ++ rest) =
      .success (.cast type.text [.name value.toIdentifier]) rest := by
  have weights : weight type.pieces ≤ size ∧ weight (Operand.name value).pieces ≤ size := by
    simp [Operand.castPieces, Operand.pieces] at small ⊢
    omega
  have begins := type.first.isOneOf_word free_castWords
  have begun : value.text ≠ "instanceof" := value.text_ne (by decide)
  have head (last : Place) (tokens : List Token) :=
    types.reads type place.next weights.1 (endsType_closeParenthesis last tokens)
  have tail (last : Place) := expressions.operands (.name value) postfixStrength last weights.2 ends
  simp only [Operand.pieces, Place.lay, List.cons_append, List.nil_append] at tail
  simp [castExpression, Operand.castPieces, begins, head, whileNext_of_not, beginsOperand, begun, tail,
    Stretch.text_plain]
  simp [Stretch.plain, Stretch.concat, Operand.code]

theorem castExpression_openParenthesis (types : grammar.ReadsTypes size) (arrow : Bool)
    (place next : Place) (tokens : List Token) :
    ∃ left, castExpression grammar arrow
      (place.sign .openParenthesis :: next.sign .openParenthesis :: tokens) = .failure left := by
  obtain ⟨left, refused⟩ := types.refuses next tokens
  exact ⟨left, by simp [castExpression, refused]⟩

theorem castExpression_refuses (types : grammar.ReadsTypes size) {inner : Operand}
    (small : weight inner.pieces ≤ size) (place last : Place) (arrow : Bool)
    (follows : FollowsOperand rest) :
    ∃ left, castExpression grammar arrow (place.sign .openParenthesis ::
      (place.next.lay inner.pieces ++ last.sign .closeParenthesis :: rest)) = .failure left := by
  have begins := inner.begins_pieces
  generalize inner.isCall = isCall, inner.pieces = pieces at begins small ⊢
  cases begins with
  | @keyword _ id more listed =>
      have begun : id.text ∈ expressionWords ++ softWords :=
        (by decide : ∀ word ∈ ["this", "new", "super"], word ∈ expressionWords ++ softWords) _ listed
      simp [castExpression, Place.word_isOneOf _ begun]
  | parenthesis => exact castExpression_openParenthesis types arrow place place.next _
  | named name =>
      have begins := name.first.isOneOf_word free_castWords
      rw [← WrittenType.pieces_named] at small ⊢
      have read := types.reads _ place.next small (endsType_closeParenthesis last rest)
      have other := follows.not_beginsOperand
      have first : (WrittenType.named name [] false).first = name.first := rfl
      simp [castExpression, begins, read, whileNext_of_not, other, first]
  | called name more =>
      have begins := name.first.isOneOf_word free_castWords
      rw [← WrittenType.pieces_named] at small ⊢
      rw [weight_append] at small
      have opened (middle : Place) (tokens : List Token) :
          EndsType (middle.sign .openParenthesis :: tokens) :=
        endsType_sign (by decide) middle tokens
      have read (middle : Place) (tokens : List Token) :=
        types.reads _ place.next (Nat.le_trans (Nat.le_add_right _ _) small) (opened middle tokens)
      have first : (WrittenType.named name [] false).first = name.first := rfl
      simp [castExpression, begins, read, whileNext_of_not, first]

/-! ## Operands -/

theorem selections_le (operand : Operand) : operand.selections ≤ weight operand.pieces := by
  fun_induction Operand.selections operand with
  | case1 object id ih => simp [Operand.pieces, DottedName.dotted]; omega
  | case2 object id arguments ih => simp [Operand.pieces, DottedName.dotted]; omega
  | case3 => simp [Operand.pieces, DottedName.dotted]
  | case4 => simp [Operand.pieces, DottedName.dotted]
  | case5 => exact Nat.zero_le _

theorem operand_free (id : FreeName) (place : Place) (noType : typeNotationAhead rest = false) :
    operand grammar true (place.word id.toIdentifier :: rest) =
      nameOperand grammar true place.line (place.word id.toIdentifier :: rest) := by
  have words : ∀ word ∈ ["new", "this", "super", "true", "false", "null", "switch"], id.text ≠ word :=
    fun word member => id.text_ne ((by decide : ∀ word ∈
      ["new", "this", "super", "true", "false", "null", "switch"], word ∈ reservedWords) word member)
  have primitive : primitiveTypes.contains id.text = false := id.not_contains (by decide)
  simp only [List.forall_mem_cons] at words
  simp [-List.contains_eq_mem, operand, wordOperand, words, primitive, typeNotationAhead, noType]

theorem operand_super (place next : Place) (tokens : List Token) :
    operand grammar true (place.word .super :: next.sign .dot :: tokens) =
      suffixes grammar place.line grammar.limit (.super, false) (next.sign .dot :: tokens) := by
  simp [operand, wordOperand, Identifier.super]

theorem typeNotationAhead_dotted (id : FreeName) (place : Place) :
    typeNotationAhead (place.lay (DottedName.dotted id) ++ rest) = typeNotationAhead rest := by
  simp [DottedName.dotted, typeNotationAhead]

theorem typeNotationAhead_argumentPieces (arguments : List Operand) (place : Place) :
    typeNotationAhead (place.lay (Operand.argumentPieces arguments) ++ rest) = false := by
  cases arguments <;> simp [Operand.argumentPieces, typeNotationAhead]

theorem operand_parenthesis {inner : List Piece} {code : Code} {value : Code × Bool} {left : List Token}
    (place last : Place)
    (noArrow :
      arrowAfterParentheses 1 (place.next.lay inner ++ last.sign .closeParenthesis :: rest) = false)
    (noCast : ∃ other, castExpression grammar true (place.sign .openParenthesis ::
      (place.next.lay inner ++ last.sign .closeParenthesis :: rest)) = .failure other)
    (content : grammar.expression 0 true (place.next.lay inner ++ last.sign .closeParenthesis :: rest) =
      .success code (last.sign .closeParenthesis :: rest))
    (follows : FollowsOperand rest)
    (read : suffixes grammar place.line grammar.limit (.parenthesized code, false) rest =
      .success value left) :
    operand grammar true (place.sign .openParenthesis ::
      (place.next.lay inner ++ last.sign .closeParenthesis :: rest)) = .success value left := by
  have unsigned := signedNameAhead_lay (place.sign .openParenthesis) place.next last inner
    follows.unsigned
  obtain ⟨other, refused⟩ := noCast
  have enclosed : (do
      let inner ← condition grammar
      suffixes grammar place.line grammar.limit (.parenthesized inner, false))
        (place.sign .openParenthesis ::
          (place.next.lay inner ++ last.sign .closeParenthesis :: rest)) = .success value left := by
    simp [condition, content, read]
  have cast : (do return (← castExpression grammar true, false) : Parser (Code × Bool))
      (place.sign .openParenthesis ::
        (place.next.lay inner ++ last.sign .closeParenthesis :: rest)) = .failure other := by
    simp [refused]
  have chosen := orElse_of_failure cast enclosed
  simp [operand, parenthesis, arrowAfterParentheses, noArrow, unsigned]
  exact chosen

theorem operand_reads (types : grammar.ReadsTypes size) (expressions : grammar.ReadsExpressions size)
    (enough : size < grammar.limit) : ∀ (object : Operand) (place : Place) {rest left : List Token}
      {value : Code × Bool}, weight object.pieces ≤ size + 1 → FollowsOperand rest →
      typeNotationAhead rest = false →
      suffixes grammar place.line (grammar.limit - object.selections)
        (object.code place.line, object.isAssignable) rest = .success value left →
      operand grammar true (place.lay object.pieces ++ rest) = .success value left
  | .this, place, rest, left, value, small, follows, noType, read => by
    simp [operand, wordOperand, Operand.pieces, Identifier.this]
    exact read
  | .name id, place, rest, left, value, small, follows, noType, read => by
    simp [Operand.pieces, operand_free, noType, nameOperand, follows.not_isSymbol]
    exact read
  | .creation type arguments, place, rest, left, value, small, follows, noType, read => by
    simp only [Operand.pieces, weight, weight_append] at small
    have inner : weight (WrittenType.named type arguments false).pieces ≤ size + 1 := by omega
    have opened (last : Place) (tokens : List Token) : EndsName (last.sign .openParenthesis :: tokens) :=
      endsName_sign (by decide) last tokens
    have name (middle last : Place) (tokens : List Token) :=
      simpleType_reads types type inner (by omega) middle (opened last tokens)
    simp [operand, wordOperand, creation, Operand.pieces, Identifier.new, annotationStretch_none,
      optionalTypeArguments_none, name, argumentList, listUntil, follows.not_isSymbol, Stretch.text_plain]
    exact read
  | .cast type inner, place, rest, left, value, small, follows, noType, read => by
    have pieces : (Operand.cast type inner).pieces = .sign .openParenthesis ::
        (Operand.castPieces type inner ++ [.sign .closeParenthesis]) := by
      simp [Operand.pieces, Operand.castPieces]
    rw [pieces, weight, weight_append] at small
    have closed (last : Place) : EndsExpression (last.sign .closeParenthesis :: rest) :=
      .closeParenthesis last rest
    have content (last : Place) := expressions.casts type inner place.next (by omega) (closed last)
    have noCast := castExpression_openParenthesis types true place place.next
    rw [pieces]
    simp only [Place.lay, Place.lay_append, List.cons_append, List.append_assoc, List.nil_append]
    refine operand_parenthesis place _ ?_ (noCast _) (content _) follows read
    simp [Operand.castPieces, arrowAfterParentheses, arrowAfterParentheses_type, follows.not_isSymbol]
  | .parenthesized inner, place, rest, left, value, small, follows, noType, read => by
    simp [Operand.pieces] at small
    have closed (last : Place) : EndsExpression (last.sign .closeParenthesis :: rest) :=
      .closeParenthesis last rest
    have content (last : Place) := expressions.operands inner 0 place.next (by omega) (closed last)
    have noCast (last : Place) :=
      castExpression_refuses types (by omega : weight inner.pieces ≤ size) place last true follows
    simp only [Operand.pieces, Place.lay, Place.lay_append, List.cons_append, List.append_assoc,
      List.nil_append]
    refine operand_parenthesis place _ ?_ (noCast _) (content _) follows read
    rw [arrowAfterParentheses_operand]
    simp [arrowAfterParentheses, follows.not_isSymbol]
  | .field object id, place, rest, left, value, small, follows, noType, read => by
    have fuel : grammar.limit - object.selections =
        grammar.limit - (Operand.field object id).selections + 1 := by
      have few := selections_le (.field object id)
      rw [Operand.selections] at few ⊢
      omega
    rw [Operand.pieces, weight_append] at small
    rw [Operand.pieces, Place.lay_append, List.append_assoc]
    -- The object is read with its own selection as the first of what follows it.
    refine operand_reads types expressions enough object place (by omega)
      (.dot (place.after object.pieces) _) ?_ ?_
    · rw [typeNotationAhead_dotted, noType]
    · rw [fuel, suffixes_field _ _ _ _ _ _ follows]
      exact read
  | .superField id, place, rest, left, value, small, follows, noType, read => by
    have selected := suffixes_field grammar id (.super, false) place.line
      (grammar.limit - 1) place.next follows
    rw [Nat.sub_add_cancel (by omega)] at selected
    exact (operand_super place _ _).trans (selected.trans read)
  | .call object id arguments, place, rest, left, value, small, follows, noType, read => by
    have fuel : grammar.limit - object.selections =
        grammar.limit - (Operand.call object id arguments).selections + 1 := by
      have few := selections_le (.call object id arguments)
      rw [Operand.selections] at few ⊢
      omega
    rw [Operand.pieces, weight_append, weight_append] at small
    rw [Operand.pieces, Place.lay_append, List.append_assoc]
    refine operand_reads types expressions enough object place (by omega)
      (.dot (place.after object.pieces) _) ?_ ?_
    · rw [Place.lay_append, List.append_assoc, typeNotationAhead_dotted, typeNotationAhead_argumentPieces]
    · rw [fuel, suffixes_call expressions id (by omega) (by omega), Place.after_line]
      exact read
  | .superCall id arguments, place, rest, left, value, small, follows, noType, read => by
    rw [Operand.pieces, weight, weight_append] at small
    have few : weight (Operand.argumentPieces arguments) ≤ size + 2 := by omega
    have selected := suffixes_call expressions id few (by omega) (.super, false) place.line
      (grammar.limit - 1) place.next rest
    rw [Nat.sub_add_cancel (by omega)] at selected
    exact (operand_super place _ _).trans (selected.trans read)
  | .ownCall id arguments, place, rest, left, value, small, follows, noType, read => by
    rw [Operand.pieces, weight] at small
    have few : weight (Operand.argumentPieces arguments) ≤ size + 2 := by omega
    have call := argumentList_reads expressions few (by omega) place.next rest
    simp [Operand.pieces, operand_free, typeNotationAhead_argumentPieces, nameOperand, call]
    exact read

theorem operand_cast (types : grammar.ReadsTypes size) (expressions : grammar.ReadsExpressions size)
    {type : WrittenType} {value : FreeName} (small : weight (Operand.castPieces type value) ≤ size + 1)
    (place : Place) (ends : EndsExpression rest) :
    operand grammar true (place.lay (Operand.castPieces type value) ++ rest) =
      .success (.cast type.text [.name value.toIdentifier], false) rest := by
  have cast := castExpression_reads types expressions small place ends
  have unsigned (last : Place) (tokens : List Token) :
      signedNameAhead (place.sign .openParenthesis :: (place.next.lay type.pieces ++
        last.sign .closeParenthesis :: last.next.space.word value.toIdentifier :: tokens)) = false :=
    signedNameAhead_lay _ place.next last type.pieces rfl
  simp only [Operand.castPieces, Place.lay, Place.lay_append, List.cons_append, List.append_assoc,
    List.nil_append] at cast ⊢
  simp [operand, parenthesis, arrowAfterParentheses, arrowAfterParentheses_type, unsigned]
  exact orElse_of_success (by simp [cast])

theorem operators_ends (strength limit : Nat) (arrow : Bool) (code : Code) (ends : EndsExpression rest) :
    operators grammar strength arrow limit code rest = .success code rest := by
  cases limit with
  | zero => rfl
  | succ limit => cases ends <;> simp [operators, signAhead, infixStrength]

theorem expressionRule_of_operand {tokens : List Token} {code : Code} {assignable : Bool}
    (read : operand grammar true tokens = .success (code, assignable) rest) (ends : EndsExpression rest)
    (strength : Nat) : expressionRule grammar strength true tokens = .success code rest := by
  have unassigned : assignmentSigns.contains (signAhead rest).1 = false := by
    cases ends <;> simp [signAhead, assignmentSigns]
  simp [-List.contains_eq_mem, expressionRule, read, superCallAhead_ends ends, unassigned,
    operators_ends _ _ _ _ ends]

end Parser

end CallContext.Java
