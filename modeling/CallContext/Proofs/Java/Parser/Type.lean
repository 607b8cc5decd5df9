import CallContext.Java.Parser.Type
import CallContext.Proofs.Java.Parser
import CallContext.Proofs.Java.Written.Type

namespace CallContext.Java

def Stretch.plain (tokens : List Token) : Stretch := ⟨tokens, []⟩

def EndsName (rest : List Token) : Prop :=
  ∀ sign ∈ [".", "<"], rest.head?.any (·.isSymbol sign) = false

def EndsType (rest : List Token) : Prop :=
  ∀ sign ∈ [".", "<", "[", "@"], rest.head?.any (·.isSymbol sign) = false

theorem EndsType.endsName {rest : List Token} (ends : EndsType rest) : EndsName rest :=
  fun sign member => ends sign (List.mem_append_left ["[", "@"] member)

theorem endsType_word (place : Place) (id : Identifier) (rest : List Token) :
    EndsType (place.word id :: rest) :=
  fun _ _ => rfl

theorem endsType_sign {mark : Sign} (other : mark ≠ .dot ∧ mark ≠ .openAngle ∧ mark ≠ .openBracket)
    (place : Place) (rest : List Token) : EndsType (place.sign mark :: rest) := by
  have apart : ∀ sign ∈ [".", "<", "[", "@"], (mark.text == sign) = false := by
    cases mark <;> first | decide | simp at other
  exact apart

theorem endsName_sign {mark : Sign} (other : mark ≠ .dot ∧ mark ≠ .openAngle) (place : Place)
    (rest : List Token) : EndsName (place.sign mark :: rest) := by
  have apart : ∀ sign ∈ [".", "<"], (mark.text == sign) = false := by
    cases mark <;> first | decide | simp at other
  exact apart

structure Grammar.ReadsTypes (grammar : Grammar) (size : Nat) : Prop where
  reads : ∀ (type : WrittenType) (place : Place) {rest : List Token}, Piece.weight type.pieces ≤ size →
    EndsType rest → grammar.type (place.lay type.pieces ++ rest) =
      .success (.plain (place.lay type.pieces)) rest
  refuses : ∀ (place : Place) (rest : List Token),
    ∃ left, grammar.type (place.sign .openParenthesis :: rest) = .failure left

theorem Stretch.text_plain (type : WrittenType) (place : Place) :
    (Stretch.plain (place.lay type.pieces)).text = type.text := by
  have apart : Piece.areApart (type.pieces ++ []) := type.areApart_pieces rfl
  rw [List.append_nil] at apart
  have spelled := type.spell_pieces
  obtain ⟨rest, begun⟩ := type.pieces_eq_cons
  rw [begun] at apart spelled ⊢
  rw [Stretch.text, Stretch.plain, Place.spell_lay apart, spelled, String.ofList_toList]

namespace Parser

variable {grammar : Grammar} {size : Nat} {tokens rest : List Token}

theorem annotationStretch_none (other : tokens.head?.any (·.isSymbol "@") = false) :
    annotationStretch grammar tokens = .success (.plain []) tokens := by
  rw [annotationStretch, bind_apply, annotations, whileNext_of_not _ other]
  rfl

@[simp] theorem annotationStretch_word (place : Place) (id : Identifier) :
    annotationStretch grammar (place.word id :: tokens) =
      .success (.plain []) (place.word id :: tokens) :=
  annotationStretch_none rfl

@[simp] theorem annotationStretch_sign (place : Place) (mark : Sign) :
    annotationStretch grammar (place.sign mark :: tokens) =
      .success (.plain []) (place.sign mark :: tokens) :=
  annotationStretch_none (by cases mark <;> rfl)

theorem optionalTypeArguments_none (other : tokens.head?.any (·.isSymbol "<") = false) :
    optionalTypeArguments grammar tokens = .success (.plain []) tokens := by
  rw [optionalTypeArguments, bind_apply, nextSymbol_apply]
  simp only [other]
  rfl

@[simp] theorem optionalTypeArguments_word (place : Place) (id : Identifier) :
    optionalTypeArguments grammar (place.word id :: tokens) =
      .success (.plain []) (place.word id :: tokens) :=
  optionalTypeArguments_none rfl

theorem typeTail_none (grammar : Grammar) (limit : Nat)
    (other : tokens.head?.any (·.isSymbol ".") = false) :
    typeTail grammar limit tokens = .success (.plain []) tokens := by
  match limit, tokens, other with
  | 0, _, _ => rfl
  | _ + 1, [], _ => rfl
  | _ + 1, [_], _ => rfl
  | _ + 1, dot :: _ :: _, other =>
    have apart : dot.isSymbol "." = false := other
    simp only [typeTail, apart, Bool.false_and, Bool.false_eq_true, if_false]
    rfl

theorem dimensions_none (grammar : Grammar) (limit : Nat) (other : EndsType tokens) :
    dimensions grammar limit tokens = .success (.plain []) tokens := by
  have unopened : nextBrackets tokens = .success false tokens := by
    match tokens, other "[" (by decide) with
    | [], _ => rfl
    | [_], _ => rfl
    | opening :: _ :: _, other =>
      have apart : opening.isSymbol "[" = false := other
      rw [nextBrackets, apart]
      rfl
  cases limit with
  | zero => rfl
  | succ limit =>
      rw [dimensions, bind_apply, unopened]
      simp only [Bool.false_eq_true, if_false, bind_apply, nextSymbol_apply, other "@" (by decide)]
      rfl

open WrittenType Piece

theorem concat_collect {ι : Type} (pieces : ι → List Piece) (items : List ι) (place : Place) :
    Stretch.concat (place.collect pieces (fun place item => .plain (place.lay (pieces item))) items) =
      .plain (place.lay (items.flatMap pieces)) := by
  induction items generalizing place with
  | nil => rfl
  | cons item items ih =>
      have rest := ih (place.after (pieces item))
      simp only [Stretch.concat, Stretch.plain, Stretch.mk.injEq] at rest ⊢
      simp [Place.collect, rest.1, rest.2]

theorem typeArgument_reads (types : grammar.ReadsTypes size) {type : WrittenType}
    (small : weight type.pieces ≤ size) (place : Place) (ends : EndsType rest) :
    typeArgument grammar (place.lay type.pieces ++ rest) =
      .success (.plain (place.lay type.pieces)) rest := by
  have plain : annotationStretch grammar (place.lay type.pieces ++ rest) =
      .success (.plain []) (place.lay type.pieces ++ rest) :=
    annotationStretch_none (by simp)
  simp [typeArgument, plain, types.reads type place small ends, Stretch.concat, Stretch.plain]

theorem moreTypeArguments_reads (types : grammar.ReadsTypes size) {arguments : List WrittenType}
    (small : weight (commaPieces arguments) ≤ size) (enough : size ≤ grammar.limit) (place : Place)
    (stops : rest.head?.any (·.isSymbol ",") = false) (ends : EndsType rest) :
    moreTypeArguments grammar (place.lay (commaPieces arguments) ++ rest) =
      .success (.plain (place.lay (commaPieces arguments))) rest := by
  rw [commaPieces_eq] at small ⊢
  let value (place : Place) (type : WrittenType) : Stretch := .plain (place.lay (afterComma pieces type))
  rw [moreTypeArguments, bind_apply, whileNext_afterCommas pieces value small enough
    (endsType_sign (by decide)) ?_ stops ends]
  · exact congrArg (Outcome.success · rest) (concat_collect (afterComma pieces) arguments place)
  · intro type inner place more follows
    have read := typeArgument_reads types inner place.next.space follows
    simp [afterComma, value, read, Stretch.concat, Stretch.plain, Stretch.single]

theorem typeArguments_reads (types : grammar.ReadsTypes size) {first : WrittenType}
    {arguments : List WrittenType} (small : weight (anglePieces (first :: arguments)) ≤ size + 1)
    (enough : size ≤ grammar.limit) (place : Place) :
    typeArguments grammar (place.lay (anglePieces (first :: arguments)) ++ rest) =
      .success (.plain (place.lay (anglePieces (first :: arguments)))) rest := by
  simp only [anglePieces, weight, weight_append] at small
  have headSmall : weight first.pieces ≤ size := by omega
  have restSmall : weight (commaPieces arguments) ≤ size := by omega
  have closed (place : Place) : EndsType (place.sign .closeAngle :: rest) :=
    endsType_sign (by decide) place rest
  have ends (middle last : Place) :
      EndsType (middle.lay (commaPieces arguments) ++ last.sign .closeAngle :: rest) := by
    rw [commaPieces_eq]
    exact follows_afterCommas pieces (endsType_sign (by decide)) (closed last) arguments middle
  have head (last : Place) :=
    typeArgument_reads types headSmall place.next (ends (place.next.after first.pieces) last)
  have more (last : Place) :=
    moreTypeArguments_reads types restSmall enough (place.next.after first.pieces) rfl (closed last)
  simp [typeArguments, anglePieces, head, more, Stretch.concat, Stretch.plain, Stretch.single]

theorem optionalTypeArguments_reads (types : grammar.ReadsTypes size) {arguments : List WrittenType}
    (small : weight (anglePieces arguments) ≤ size + 1) (enough : size ≤ grammar.limit) (place : Place)
    (ends : EndsName rest) :
    optionalTypeArguments grammar (place.lay (anglePieces arguments) ++ rest) =
      .success (.plain (place.lay (anglePieces arguments))) rest := by
  cases arguments with
  | nil => exact optionalTypeArguments_none (ends "<" (by decide))
  | cons first arguments =>
      have opened : (place.lay (anglePieces (first :: arguments)) ++ rest).head?.any
        (·.isSymbol "<") = true := rfl
      rw [optionalTypeArguments, bind_apply, nextSymbol_apply, opened]
      exact typeArguments_reads types small enough place

theorem typeRest_reads (types : grammar.ReadsTypes size) {arguments : List WrittenType}
    (small : weight (anglePieces arguments) ≤ size + 1) (enough : size ≤ grammar.limit)
    (others : List FreeName) {limit : Nat} (fuel : others.length ≤ limit) (place : Place)
    (ends : EndsName rest) :
    ∃ middle left right, optionalTypeArguments grammar
        (place.lay (others.flatMap DottedName.dotted ++ anglePieces arguments) ++ rest) =
          .success (.plain left) middle ∧
      typeTail grammar limit middle = .success (.plain right) rest ∧
      left ++ right = place.lay (others.flatMap DottedName.dotted ++ anglePieces arguments) := by
  induction others generalizing limit place with
  | nil =>
      have read := optionalTypeArguments_reads types small enough place ends
      have stop := typeTail_none grammar limit (ends "." (by decide))
      exact ⟨rest, _, [], read, stop, List.append_nil _⟩
  | cons other others ih =>
      obtain ⟨limit, rfl⟩ := Nat.exists_eq_add_of_le' fuel
      obtain ⟨middle, left, right, read, tail, all⟩ :=
        ih (Nat.le_add_left others.length limit) place.next.next
      have reserved : ∀ word ∈ selectorWords, word ∈ reservedWords := by decide
      have free := other.isOneOf_word reserved place.next
      refine ⟨_, [], place.sign .dot :: place.next.word other.toIdentifier :: (left ++ right),
        optionalTypeArguments_none rfl, ?_, by simp [DottedName.dotted, all]⟩
      rw [List.length_cons, ← Nat.add_assoc, typeTail, List.flatMap_cons, List.append_assoc]
      simp [-Place.lay_append, DottedName.dotted, free, read, tail, Stretch.concat, Stretch.plain,
        Stretch.single]

theorem length_le_dotted (others : List FreeName) :
    others.length ≤ weight (others.flatMap DottedName.dotted) :=
  length_le_flatMap DottedName.dotted fun _ _ => Nat.succ_pos 1

theorem simpleType_reads (types : grammar.ReadsTypes size) (name : DottedName)
    {arguments : List WrittenType}
    (small : weight (WrittenType.named name arguments false).pieces ≤ size + 1)
    (enough : size ≤ grammar.limit) (place : Place) (ends : EndsName rest) :
    simpleType grammar (place.lay (WrittenType.named name arguments false).pieces ++ rest) =
      .success (.plain (place.lay (WrittenType.named name arguments false).pieces)) rest := by
  have free : primitiveTypes.contains name.first.text = false := name.first.not_contains (by decide)
  have spelled : (WrittenType.named name arguments false).pieces = .word name.first.toIdentifier ::
      (name.others.flatMap DottedName.dotted ++ anglePieces arguments) := by
    simp [pieces, DottedName.pieces, bracketPieces]
  rw [spelled] at small ⊢
  rw [weight, weight_append] at small
  have few := length_le_dotted name.others
  have inner : weight (anglePieces arguments) ≤ size + 1 := by omega
  have fuel : name.others.length ≤ grammar.limit := by omega
  obtain ⟨middle, left, right, read, tail, all⟩ :=
    typeRest_reads types inner enough name.others fuel place.next ends
  rw [Place.lay, List.cons_append, simpleType, bind_apply, word_word]
  simp only [Place.word_text, free, Bool.false_eq_true, if_false, bind_apply, read, tail, pure_apply]
  simp [-Place.lay_append, ← all, Stretch.concat, Stretch.plain, Stretch.single]

theorem weight_simple_le (name : DottedName) (arguments : List WrittenType) (isArray : Bool) :
    weight (WrittenType.named name arguments false).pieces ≤
      weight (WrittenType.named name arguments isArray).pieces := by
  simp [pieces, bracketPieces]

theorem unannotatedType_reads (types : grammar.ReadsTypes size) {type : WrittenType}
    (small : weight type.pieces ≤ size + 1) (enough : size ≤ grammar.limit) (place : Place)
    (ends : EndsType rest) :
    unannotatedType grammar (place.lay type.pieces ++ rest) =
      .success (.plain (place.lay type.pieces)) rest := by
  obtain ⟨name, arguments, isArray⟩ := type
  have simple := Nat.le_trans (weight_simple_le name arguments isArray) small
  cases isArray with
  | false =>
      have none := dimensions_none grammar grammar.limit ends
      simp [unannotatedType, simpleType_reads types name simple enough place ends.endsName, none,
        Stretch.concat, Stretch.plain]
  | true =>
      have pieces_eq : (WrittenType.named name arguments true).pieces =
          (WrittenType.named name arguments false).pieces ++
            [.sign .openBracket, .sign .closeBracket] := by
        simp [pieces, bracketPieces]
      have many : grammar.limit ≠ 0 := by
        rw [pieces_eq, weight_append] at small
        simp at small
        omega
      obtain ⟨limit, fuel⟩ := Nat.exists_eq_succ_of_ne_zero many
      have none := dimensions_none grammar limit ends
      have opened (last : Place) (tokens : List Token) : EndsName (last.sign .openBracket :: tokens) :=
        endsName_sign (by decide) last tokens
      have name (last : Place) (tokens : List Token) :=
        simpleType_reads types name simple enough place (opened last tokens)
      rw [pieces_eq]
      simp [unannotatedType, name, fuel, dimensions, nextBrackets, dimension, none, Stretch.concat,
        Stretch.plain, Stretch.single]

theorem typeRule_reads (types : grammar.ReadsTypes size) {type : WrittenType}
    (small : weight type.pieces ≤ size + 1) (enough : size ≤ grammar.limit) (place : Place)
    (ends : EndsType rest) :
    typeRule grammar (place.lay type.pieces ++ rest) = .success (.plain (place.lay type.pieces)) rest := by
  have plain : annotationStretch grammar (place.lay type.pieces ++ rest) =
      .success (.plain []) (place.lay type.pieces ++ rest) :=
    annotationStretch_none (by simp)
  simp [typeRule, plain, unannotatedType_reads types small enough place ends, Stretch.concat,
    Stretch.plain]

end Parser

end CallContext.Java
