import CallContext.Java.Parser.Declaration
import CallContext.Proofs.Java.Parser.Statement

namespace CallContext.Java

open Piece

def Grammar.ReadsBodies (grammar : Grammar) (size : Nat) : Prop :=
  ∀ (members : List WrittenMember) (place inner last : Place) (rest : List Token),
    weightLines (WrittenMember.pieceLinesOf members) + 2 ≤ size →
      grammar.classBody (place.sign .openBrace ::
          (inner.layLines (WrittenMember.pieceLinesOf members) ++ last.sign .closeBrace :: rest)) =
        .success (WrittenMember.toSyntaxes inner.line members) rest

structure Grammar.Reads (grammar : Grammar) (size : Nat) : Prop where
  types : grammar.ReadsTypes size
  expressions : grammar.ReadsExpressions size
  statements : grammar.ReadsStatements size
  bodies : grammar.ReadsBodies size

def memberWords : List String :=
  ["class", "interface", "enum", "record"] ++ modifierWords

theorem free_memberWords : ∀ word ∈ memberWords, word ∈ reservedWords := by
  decide

theorem WrittenMethod.returnPieces_eq_cons (returned : Option WrittenType) :
    ∃ id rest, returnPieces returned = .word id :: rest ∧ id.text ∉ memberWords := by
  cases returned with
  | none => exact ⟨.void, [], rfl, by decide⟩
  | some type =>
      obtain ⟨rest, begun⟩ := type.pieces_eq_cons
      exact ⟨_, rest, begun, fun member => type.first.free (free_memberWords _ member)⟩

@[simp] theorem Stretch.code_plain (tokens : List Token) : (Stretch.plain tokens).code = [] := rfl

namespace Parser

namespace Modifiers

def none : Modifiers := ⟨[], []⟩

@[simp] theorem code_none : none.code = [] := rfl

@[simp] theorem names_none : none.names = [] := rfl

end Modifiers

open WrittenMethod

variable {grammar : Grammar} {size : Nat} {rest tokens : List Token}

theorem modifiers_none (other : tokens.head?.any Token.isModifier = false) :
    modifiers grammar tokens = .success .none tokens := by
  simp [modifiers, whileNext_of_not _ other, Modifiers.none]

theorem isModifier_word {id : Identifier} (other : id.text ∉ modifierWords) (place : Place) :
    (place.word id).isModifier = false := by
  simp [Token.isModifier, Token.isOneOf, other]

theorem free_modifierWords : ∀ word ∈ modifierWords, word ∈ reservedWords := by
  decide

theorem unannotatedType_return (types : grammar.ReadsTypes size) (enough : size ≤ grammar.limit)
    {returned : Option WrittenType} (small : weight (returnPieces returned) ≤ size + 1) (place : Place)
    (ends : EndsType rest) :
    unannotatedType grammar (place.lay (returnPieces returned) ++ rest) =
      .success (.plain (place.lay (returnPieces returned))) rest := by
  cases returned with
  | none =>
      have plain := dimensions_none grammar grammar.limit ends
      simp [returnPieces, unannotatedType, simpleType, Identifier.void, primitiveTypes, plain,
        Stretch.concat, Stretch.plain, Stretch.single]
  | some type => exact unannotatedType_reads types small enough place ends

theorem text_returnPieces (method : WrittenMethod) (place : Place) :
    (Stretch.plain (place.lay (returnPieces method.returnType))).text = method.returnText := by
  rw [returnText]
  cases method.returnType with
  | none => rfl
  | some type => exact Stretch.text_plain type place

theorem variableName_reads (grammar : Grammar) (id : Identifier) (place : Place)
    (ends : EndsExpression rest) :
    variableName grammar (place.word id :: rest) = .success (id.text, []) rest := by
  simp [variableName, dimensions_none grammar grammar.limit ends.endsType, Stretch.plain]

theorem nextWordThen_ends {sign : String} (other : sign ∉ [";", ",", ")"]) (first : Token)
    (ends : EndsExpression rest) : nextWordThen sign (first :: rest) = .success false (first :: rest) := by
  have apart := ends.not_isSymbol other
  match rest, apart with
  | [], _ => rfl
  | second :: _, apart =>
    have second_ne : second.isSymbol sign = false := apart
    simp [nextWordThen, second_ne]

theorem formalParameter_reads (types : grammar.ReadsTypes size) (enough : size ≤ grammar.limit)
    (parameter : WrittenParameter) (small : weight parameter.pieces ≤ size + 1) (isFirst : Bool)
    (place : Place) (ends : EndsExpression rest) :
    formalParameter grammar isFirst (place.lay parameter.pieces ++ rest) =
      .success (some parameter.toSyntax, parameter.toCode) rest := by
  have free : (place.word parameter.type.first.toIdentifier).isModifier = false :=
    isModifier_word (fun member => parameter.type.first.free (free_modifierWords _ member)) place
  have plain (tokens : List Token) : modifiers grammar (place.lay parameter.type.pieces ++ tokens) =
      .success .none (place.lay parameter.type.pieces ++ tokens) :=
    modifiers_none (by simp [free])
  rw [WrittenParameter.pieces, weight_append] at small
  have type (last : Place) (tokens : List Token) := unannotatedType_reads types
    (Nat.le_trans (Nat.le_add_right _ _) small) enough place
    (endsType_word last parameter.name.toIdentifier tokens)
  have name (last : Place) := variableName_reads grammar parameter.name.toIdentifier last ends
  have named : parameter.name.text ≠ "this" := parameter.name.text_ne (by decide)
  have noDot (last : Place) := nextWordThen_ends (by decide : "." ∉ [";", ",", ")"])
    (last.word parameter.name.toIdentifier) ends
  simp [formalParameter, WrittenParameter.pieces, plain, type, named, noDot, name, Stretch.text_plain,
    WrittenParameter.toSyntax, WrittenParameter.toCode]

theorem moreParameters_reads (types : grammar.ReadsTypes size) (enough : size ≤ grammar.limit)
    {parameters : List WrittenParameter}
    (small : weight (afterCommas WrittenParameter.pieces parameters) ≤ size) (place : Place)
    (stops : rest.head?.any (·.isSymbol ",") = false) (ends : EndsExpression rest) :
    whileNext (·.isSymbol ",") (do let _ ← symbol ","; formalParameter grammar false) grammar.limit
        (place.lay (afterCommas WrittenParameter.pieces parameters) ++ rest) =
      .success (parameters.map fun parameter => (some parameter.toSyntax, parameter.toCode)) rest := by
  rw [← place.collect_const (afterComma WrittenParameter.pieces)]
  refine whileNext_afterCommas _ _ small enough EndsExpression.comma ?_ stops ends place
  intro parameter inner place more follows
  simpa using formalParameter_reads types enough parameter (Nat.le_succ_of_le inner) false
    place.next.space follows

theorem formalParameters_reads (types : grammar.ReadsTypes size) (enough : size ≤ grammar.limit)
    {parameters : List WrittenParameter} (small : weight (WrittenParameter.listPieces parameters) ≤ size)
    (place last : Place) (rest : List Token) :
    formalParameters grammar (place.sign .openParenthesis ::
        (place.next.lay (WrittenParameter.listPieces parameters) ++ last.sign .closeParenthesis :: rest)) =
      .success (parameters.map (·.toSyntax), parameters.map (·.toCode)) rest := by
  cases parameters with
  | nil => simp [formalParameters, WrittenParameter.listPieces]
  | cons first others =>
      rw [WrittenParameter.listPieces, weight_append] at small
      have closed : EndsExpression (last.sign .closeParenthesis :: rest) := .closeParenthesis last rest
      have ends := follows_afterCommas WrittenParameter.pieces EndsExpression.comma closed others
      have begun (tokens : List Token) :
          (place.next.lay first.pieces ++ tokens).head?.any (·.isSymbol ")") = false := by
        simp [WrittenParameter.pieces]
      have nonempty (tokens : List Token) := optionalSymbol_of_not (begun tokens)
      have head (middle : Place) :=
        formalParameter_reads types enough first (by omega) true place.next (ends middle)
      have more (middle : Place) := moreParameters_reads types enough
        (by omega : weight (afterCommas WrittenParameter.pieces others) ≤ size) middle rfl closed
      simp [formalParameters, WrittenParameter.listPieces, nonempty, head, more, Function.comp_def]

theorem declarators_reads (name : FreeName) (place last : Place) :
    declarators grammar (place.word name.toIdentifier :: last.sign .semicolon :: rest) =
      .success [(name.text, .declarator name.text [] [])] rest := by
  have ends : EndsExpression (last.sign .semicolon :: rest) := .semicolon last rest
  have named := variableName_reads grammar name.toIdentifier place ends
  simp [declarators, separated, declarator, named, whileNext_of_not]

def declaredPieces (returned : Option WrittenType) (name : FreeName) : List Piece :=
  returnPieces returned ++ [.space, .word name.toIdentifier]

theorem typedMember_field (types : grammar.ReadsTypes size) (enough : size ≤ grammar.limit)
    (type : WrittenType) (name : FreeName) (small : weight type.pieces ≤ size + 1) (start : Token)
    (place last : Place) :
    typedMember grammar .classBody start .none []
        (place.lay (declaredPieces (some type) name) ++ last.sign .semicolon :: rest) =
      .success (.fields type.text [name.text] [.declarator name.text [] []]) rest := by
  have read (last : Place) (tokens : List Token) := unannotatedType_reads types small enough place
    (endsType_word last name.toIdentifier tokens)
  simp [declaredPieces, returnPieces, typedMember, read, nextWordThen, declarators_reads,
    Stretch.text_plain]

theorem methodTail_reads (reads : grammar.Reads size) (enough : size ≤ grammar.limit)
    (method : WrittenMethod)
    (fewParameters : weight (WrittenParameter.listPieces method.parameters) ≤ size)
    (smallBody : weightLines (method.body.map (·.pieces)) + 2 ≤ size) {start : Token}
    (type place middle opening : Place) {inner : Place} (below : inner.line = start.line + 1)
    (last : Place) (rest : List Token) :
    methodTail grammar start .none [] (.plain (type.lay (returnPieces method.returnType)))
        method.name.text (place.sign .openParenthesis ::
          (place.next.lay (WrittenParameter.listPieces method.parameters) ++
            middle.sign .closeParenthesis :: opening.sign .openBrace ::
              (inner.layLines (method.body.map (·.pieces)) ++ last.sign .closeBrace :: rest))) =
      .success (method.toSyntax start.line) rest := by
  have parameters := formalParameters_reads reads.types enough fewParameters place middle
    (opening.sign .openBrace ::
      (inner.layLines (method.body.map (·.pieces)) ++ last.sign .closeBrace :: rest))
  have body := reads.statements.blocks method.body opening inner last rest smallBody
  have plain (tokens : List Token) : dimensions grammar grammar.limit (opening.sign .openBrace :: tokens) =
      .success (.plain []) (opening.sign .openBrace :: tokens) :=
    dimensions_none grammar grammar.limit (endsType_sign (by decide) opening tokens)
  simp [methodTail, parameters, plain, optionalThrows, body, text_returnPieces, toSyntax, below]

theorem typedMember_method (reads : grammar.Reads size) (enough : size ≤ grammar.limit)
    (method : WrittenMethod) (small : weightLines method.pieceLines ≤ size + 1) {start : Token}
    (place opening : Place) {inner : Place} (below : inner.line = start.line + 1) (last : Place) :
    typedMember grammar .classBody start .none [] (place.lay method.headingPieces ++
        opening.sign .openBrace ::
          (inner.layLines (method.body.map (·.pieces)) ++ last.sign .closeBrace :: rest)) =
      .success (.method (method.toSyntax start.line)) rest := by
  rw [method.weightLines_pieceLines, headingPieces, weight_append] at small
  simp only [weight, weight_append] at small
  have read (next : Place) (tokens : List Token) := unannotatedType_return reads.types enough
    (by omega : weight (returnPieces method.returnType) ≤ size + 1) place
    (endsType_word next method.name.toIdentifier tokens)
  have tail (next middle : Place) := methodTail_reads reads enough method (by omega) (by omega) place
    next middle opening below last rest
  simp [headingPieces, typedMember, read, nextWordThen, tail]

theorem headingPieces_eq (method : WrittenMethod) :
    method.headingPieces = declaredPieces method.returnType method.name ++ .sign .openParenthesis ::
      (WrittenParameter.listPieces method.parameters ++ [.sign .closeParenthesis, .space]) := by
  simp [headingPieces, declaredPieces]

theorem mem_signs_declaredPieces {returned : Option WrittenType} {name : FreeName} {mark : Sign}
    (member : .sign mark ∈ declaredPieces returned name) : mark ∈ WrittenType.signs := by
  cases returned with
  | none => simp [declaredPieces, returnPieces] at member
  | some type => exact type.mem_signs (by simpa [declaredPieces, returnPieces] using member)

theorem declaredPieces_eq_cons (returned : Option WrittenType) (name : FreeName) :
    ∃ id rest, declaredPieces returned name = .word id :: rest ∧ id.text ∉ memberWords := by
  obtain ⟨id, rest, begun, other⟩ := returnPieces_eq_cons returned
  exact ⟨id, rest ++ [.space, .word name.toIdentifier], by rw [declaredPieces, begun]; rfl, other⟩

theorem memberAfter_typed (inner : Setting → Parser Member) (returned : Option WrittenType)
    (name : FreeName) (start : Token) (before : Modifiers) (place : Place) (rest : List Token) :
    memberAfter grammar inner .classBody start before (place.lay (declaredPieces returned name) ++ rest) =
      typedMember grammar .classBody start before []
        (place.lay (declaredPieces returned name) ++ rest) := by
  have two : 2 ≤ weight (declaredPieces returned name) := by
    obtain ⟨id, more, begun, -⟩ := returnPieces_eq_cons returned
    simp [declaredPieces, begun]
  have follows (sign : String) (other : ∀ mark ∈ WrittenType.signs, mark.text ≠ sign) :
      nextWordThen sign (place.lay (declaredPieces returned name) ++ rest) =
        .success false (place.lay (declaredPieces returned name) ++ rest) :=
    nextWordThen_lay (fun mark member => other mark (mem_signs_declaredPieces member)) two place
  -- As the second token, a parenthesis or brace would make this a constructor.
  have noParameters := follows "(" (by decide)
  have noBody := follows "\x7b" (by decide)
  obtain ⟨id, more, begun, other⟩ := declaredPieces_eq_cons returned name
  simp only [memberWords, List.cons_append, List.nil_append, List.mem_cons, not_or] at other
  simp only [begun, Place.lay, List.cons_append] at noParameters noBody ⊢
  simp [memberAfter, noParameters, noBody, other]

theorem memberAfter_class (reads : grammar.Reads size) (inner : Setting → Parser Member)
    (name : FreeName) (superclass : Option WrittenType) (members : List WrittenMember)
    (small : weightLines (WrittenMember.nested name superclass members).pieceLines ≤ size + 1)
    (setting : Setting) (start : Token) (place : Place) (rest : List Token) :
    memberAfter grammar inner setting start .none
        (place.layLines (WrittenMember.nested name superclass members).pieceLines ++ rest) =
      .success ((WrittenMember.nested name superclass members).toSyntax place.line) rest := by
  obtain ⟨inside, last, below, laid⟩ :=
    place.layLines_block (classPieces name superclass) (WrittenMember.pieceLinesOf members)
  simp only [WrittenMember.pieceLines, weightLines_cons, weightLines_append, weight_append] at small
  simp only [WrittenMember.pieceLines, laid, List.append_assoc, List.cons_append, List.nil_append]
  have body (opening : Place) := reads.bodies members opening inside last rest
    (by simp [classPieces] at small; omega)
  cases superclass with
  | none =>
      simp [classPieces, memberAfter, classTail, optionalTypeParameters, optionalTypes, body,
        Identifier.classWord, WrittenMember.toSyntax, below]
      rfl
  | some type =>
      simp [classPieces] at small
      have ends (opening : Place) (tokens : List Token) : EndsType (opening.sign .openBrace :: tokens) :=
        endsType_sign (by decide) opening tokens
      have super (place opening : Place) (tokens : List Token) :=
        reads.types.reads type place (by omega) (ends opening tokens)
      simp [classPieces, memberAfter, classTail, optionalTypeParameters, optionalTypes, body,
        Identifier.classWord, Identifier.extendsWord, super, Stretch.text_plain,
        WrittenMember.toSyntax, below]
      rfl

theorem layLines_pieceLines_eq_cons (member : WrittenMember) (place : Place) :
    ∃ id rest, place.layLines member.pieceLines = place.word id :: rest ∧ id.text ∉ modifierWords := by
  have lifted {id : Identifier} (other : id.text ∉ memberWords) : id.text ∉ modifierWords :=
    fun listed => other (List.mem_append_right _ listed)
  cases member with
  | field type name =>
      obtain ⟨id, more, begun, other⟩ := returnPieces_eq_cons (some type)
      have pieces : type.pieces = .word id :: more := begun
      exact ⟨id, _, by rw [WrittenMember.pieceLines, pieces]; rfl, lifted other⟩
  | method declaration =>
      obtain ⟨inner, last, -, laid⟩ := declaration.layLines_pieceLines place
      obtain ⟨id, more, begun, other⟩ := returnPieces_eq_cons declaration.returnType
      exact ⟨id, _, by rw [WrittenMember.pieceLines, laid, headingPieces, begun]; rfl, lifted other⟩
  | nested name superclass members =>
      exact ⟨.classWord, _, by rw [WrittenMember.pieceLines, classPieces]; rfl, by decide⟩

theorem memberAfter_reads (reads : grammar.Reads size) (enough : size ≤ grammar.limit)
    (inner : Setting → Parser Member) (member : WrittenMember)
    (small : weightLines member.pieceLines ≤ size + 1) (place : Place) {start : Token}
    (here : start.line = place.line) (rest : List Token) :
    memberAfter grammar inner .classBody start .none (place.layLines member.pieceLines ++ rest) =
      .success (member.toSyntax place.line) rest := by
  cases member with
  | field type name =>
      have few : weight type.pieces ≤ size + 1 := by
        simp [WrittenMember.pieceLines] at small
        omega
      have laid : place.layLines (WrittenMember.field type name).pieceLines ++ rest =
          place.lay (declaredPieces (some type) name) ++
            (place.after (declaredPieces (some type) name)).sign .semicolon :: rest := by
        simp [WrittenMember.pieceLines, declaredPieces, returnPieces]
      rw [laid, memberAfter_typed, typedMember_field reads.types enough type name few,
        WrittenMember.toSyntax]
  | method declaration =>
      obtain ⟨inside, last, below, laid⟩ := declaration.layLines_pieceLines place
      have typed (tokens : List Token) :
          memberAfter grammar inner .classBody start .none
              (place.lay declaration.headingPieces ++ tokens) =
            typedMember grammar .classBody start .none []
              (place.lay declaration.headingPieces ++ tokens) := by
        rw [headingPieces_eq, Place.lay_append, List.append_assoc, memberAfter_typed]
      rw [← here] at below
      simp only [WrittenMember.pieceLines, laid, List.append_assoc, List.cons_append, List.nil_append]
      rw [typed, typedMember_method reads enough declaration small place _ below, here,
        WrittenMember.toSyntax]
  | nested name superclass members =>
      exact memberAfter_class reads inner name superclass members small .classBody start place rest

theorem memberRule_reads (reads : grammar.Reads size) (enough : size ≤ grammar.limit) (limit : Nat)
    (member : WrittenMember) (small : weightLines member.pieceLines ≤ size + 1) (place : Place)
    (rest : List Token) :
    memberRule grammar (limit + 1) .classBody (place.layLines member.pieceLines ++ rest) =
      .success (member.toSyntax place.line) rest := by
  obtain ⟨id, more, begun, other⟩ := layLines_pieceLines_eq_cons member place
  have plain : modifiers grammar (place.word id :: (more ++ rest)) =
      .success .none (place.word id :: (more ++ rest)) :=
    modifiers_none (isModifier_word other place)
  have read := memberAfter_reads reads enough (memberRule grammar limit) member small place
    (rfl : (place.word id).line = place.line) rest
  rw [begun] at read ⊢
  simp [memberRule, plain]
  exact read

theorem collectLines_members (members : List WrittenMember) (place : Place) :
    place.collectLines WrittenMember.pieceLines (fun place member => member.toSyntax place.line) members =
      WrittenMember.toSyntaxes place.line members := by
  induction members generalizing place with
  | nil => rfl
  | cons first rest ih =>
      rw [Place.collectLines, ih, Place.afterLines_line, first.length_pieceLines, WrittenMember.toSyntaxes]

theorem classBodyRule_reads (reads : grammar.Reads size) (enough : size ≤ grammar.limit)
    (members : List WrittenMember) (place inner last : Place)
    (small : weightLines (WrittenMember.pieceLinesOf members) + 2 ≤ size + 1) :
    classBodyRule grammar (place.sign .openBrace ::
        (inner.layLines (WrittenMember.pieceLinesOf members) ++ last.sign .closeBrace :: rest)) =
      .success (WrittenMember.toSyntaxes inner.line members) rest := by
  rw [WrittenMember.pieceLinesOf_eq] at small ⊢
  have solid (member : WrittenMember) : 0 < weightLines member.pieceLines := by
    obtain ⟨id, rest, begun, -⟩ := layLines_pieceLines_eq_cons member .beginning
    rw [← Place.length_layLines .beginning, begun]
    exact Nat.succ_pos _
  have fuel : members.length ≤ weightLines (members.flatMap WrittenMember.pieceLines) :=
    length_le_weightLines _ fun member _ => solid member
  obtain ⟨limit, positive⟩ := Nat.exists_eq_succ_of_ne_zero (by omega : grammar.limit ≠ 0)
  have read : untilNext (·.isSymbol "\x7d") (do
      if ← optionalSymbol ";" then
        return []
      return [← memberRule grammar grammar.limit .classBody]) grammar.limit
      (inner.layLines (members.flatMap WrittenMember.pieceLines) ++ last.sign .closeBrace :: rest) =
        .success ((WrittenMember.toSyntaxes inner.line members).map ([·]))
          (last.sign .closeBrace :: rest) := by
    rw [← collectLines_members, Place.map_collectLines]
    refine untilNext_layLines WrittenMember.pieceLines _ (by omega) ?_ ?_ rfl inner
    · intro member _ place more
      obtain ⟨id, rest, begun, -⟩ := layLines_pieceLines_eq_cons member place
      rw [begun]
      rfl
    · intro member among place more
      have within := weightLines_le_flatMap WrittenMember.pieceLines among
      have one := memberRule_reads reads enough limit member (by omega) place more
      obtain ⟨id, rest, begun, -⟩ := layLines_pieceLines_eq_cons member place
      rw [begun] at one ⊢
      simp at one
      simp [positive, one]
  simp [classBodyRule, membersUntilBrace, read, ← List.flatMap_def]

end Parser

end CallContext.Java
