import CallContext.Java.Parser.Statement
import CallContext.Proofs.Java.Origin.Declaration

namespace CallContext.Java

def Item.From (tokens : List Token) : Item → Prop
  | .member declaration => declaration.From tokens
  | .code written => written.From tokens
  | .package _ | .imports _ => True

theorem Item.From.toCode {tokens : List Token} {item : Item} (origin : item.From tokens) :
    item.toCode.From tokens := by
  cases item with
  | package | imports => simp [Item.toCode]
  | member declaration => exact origin.1
  | code written => exact origin

theorem Item.From.mono {tokens more : List Token} {item : Item} (origin : item.From tokens)
    (suffix : tokens <:+ more) : item.From more := by
  cases item with
  | package | imports => trivial
  | member declaration => exact Member.From.mono origin suffix
  | code written => exact Code.From.mono origin suffix.subset

namespace Parser

open Code

variable {grammar : Grammar} {whole : List Token} (yields : grammar.Yields)

include yields

theorem localsTail_yields {before : Modifiers} (inBefore : AreFrom whole before.code) :
    Yields whole (localsTail grammar before) (Code.From whole) := by
  unfold localsTail
  refine (unannotatedType_yields yields).bind fun type inType =>
    (declarators_yields yields).bind fun found inFound => .pure ?_
  simpa using ⟨⟨inBefore, inType⟩, inFound⟩

theorem expressionStatement_yields : Yields whole (expressionStatement grammar) (Code.From whole) := by
  unfold expressionStatement
  exact (yields.expression whole 0 true).bind fun value inValue => symbol_yields.andThen fun _ =>
    .pure inValue

theorem simpleStatement_yields : Yields whole (simpleStatement grammar) (Code.From whole) := by
  unfold simpleStatement
  exact firstToken_yields.andThen fun first => .ite
    ((localsTail_yields yields areFrom_nil).orElse (expressionStatement_yields yields))
    (expressionStatement_yields yields)

omit yields in
theorem jumpRule_yields : Yields whole jumpRule (Code.From whole) := by
  have ending : Yields whole (do
      let _ ← symbol ";"
      return Code.other []) (Code.From whole) := symbol_yields.andThen fun _ => .pure (by simp)
  unfold jumpRule
  exact word_yields.andThen fun _ => nextSymbol_yields.andThen fun _ =>
    .ite (word_yields.andThen fun _ => ending) ending

theorem returnRule_yields : Yields whole (returnRule grammar) (Code.From whole) := by
  unfold returnRule
  exact keyword_yields.andThen fun _ => optionalSymbol_yields.andThen fun _ =>
    .ite (.pure (by simp)) (expressionStatement_yields yields)

theorem assertRule_yields : Yields whole (assertRule grammar) (Code.From whole) := by
  unfold assertRule
  refine keyword_yields.andThen fun _ => (yields.expression whole 0 true).bind fun test inTest =>
    optionalSymbol_yields.andThen fun _ => .ite ?_ (symbol_yields.andThen fun _ => .pure inTest)
  exact (expressionStatement_yields yields).bind fun detail inDetail =>
    .pure (by simpa using ⟨inTest, inDetail⟩)

theorem ifRule_yields : Yields whole (ifRule grammar) (Code.From whole) := by
  unfold ifRule
  refine keyword_yields.andThen fun _ => (condition_yields yields).bind fun test inTest =>
    (yields.statement whole).bind fun chosen inChosen => optionalWord_yields.andThen fun _ =>
    .ite ?_ (.pure (by simpa using ⟨inTest, inChosen⟩))
  exact (yields.statement whole).bind fun alternative inAlternative =>
    .pure (by simpa using ⟨inTest, inChosen, inAlternative⟩)

theorem whileRule_yields : Yields whole (whileRule grammar) (Code.From whole) := by
  unfold whileRule
  exact keyword_yields.andThen fun _ => (condition_yields yields).bind fun test inTest =>
    (yields.statement whole).bind fun body inBody => .pure (by simpa using ⟨inTest, inBody⟩)

theorem doRule_yields : Yields whole (doRule grammar) (Code.From whole) := by
  unfold doRule
  exact keyword_yields.andThen fun _ => (yields.statement whole).bind fun body inBody =>
    keyword_yields.andThen fun _ => (condition_yields yields).bind fun test inTest =>
    symbol_yields.andThen fun _ => .pure (by simpa using ⟨inBody, inTest⟩)

theorem loopVariable_yields :
    Yields whole (loopVariable grammar) fun found => AreFrom whole found.1 := by
  unfold loopVariable
  exact (modifiers_yields yields).bind fun before inBefore =>
    (unannotatedType_yields yields).bind fun type inType =>
    (variableName_yields yields).bind fun (_, sizes) inSizes => symbol_yields.andThen fun _ =>
    .pure (by simpa using ⟨inBefore, inType, inSizes⟩)

theorem loopStart_yields : Yields whole (loopStart grammar) (AreFrom whole) := by
  have declared {before : Modifiers} (inBefore : AreFrom whole before.code) :
      Yields whole (do return [← localsTail grammar before]) (AreFrom whole) :=
    (localsTail_yields yields inBefore).bind fun found inFound => .pure (by simpa using inFound)
  have expressions : Yields whole (do
      let found ← separated "," grammar.limit (grammar.expression 0 true)
      let _ ← symbol ";"
      return found) (AreFrom whole) :=
    (separated_yields (yields.expression whole 0 true) _).bind fun found inFound =>
      symbol_yields.andThen fun _ => .pure inFound
  unfold loopStart
  refine optionalSymbol_yields.andThen fun _ => .ite (.pure areFrom_nil) ?_
  refine (modifiers_yields yields).bind fun before inBefore => .ite (declared inBefore) ?_
  exact firstToken_yields.andThen fun _ => .ite ((declared inBefore).orElse expressions) expressions

theorem forRule_yields : Yields whole (forRule grammar) (Code.From whole) := by
  unfold forRule
  refine keyword_yields.andThen fun _ => symbol_yields.andThen fun _ => ?_
  have loopsOver : Yields whole (orElse (do return some (← loopVariable grammar)) (pure none))
      fun each => ∀ found, each = some found → AreFrom whole found.1 := by
    refine .orElse ?_ (.pure (by simp))
    exact (loopVariable_yields yields).bind fun found inFound => .pure (by simpa using inFound)
  refine loopsOver.bind fun each inEach => ?_
  rcases each with _ | ⟨before, _, type⟩
  · have rest {start test : List Code} (inStart : AreFrom whole start) (inTest : AreFrom whole test) :
        Yields whole (do
          let _ ← symbol ";"
          let updates ← listUntil ")" grammar.limit (grammar.expression 0 true)
          let body ← grammar.statement
          return Code.other (start ++ test ++ updates ++ [body])) (Code.From whole) :=
      symbol_yields.andThen fun _ => (listUntil_yields (yields.expression whole 0 true) _).bind
        fun updates inUpdates => (yields.statement whole).bind fun body inBody =>
        .pure (from_other.mpr (by simpa using ⟨inStart, inTest, inUpdates, inBody⟩))
    refine (loopStart_yields yields).bind fun start inStart => nextSymbol_yields.andThen fun _ =>
      .ite (rest inStart areFrom_nil) ?_
    exact (yields.expression whole 0 true).bind fun test inTest =>
      rest inStart (by simpa using inTest)
  · refine (yields.expression whole 0 true).bind fun elements inElements => symbol_yields.andThen fun _ =>
      (yields.statement whole).bind fun body inBody => .pure ?_
    simpa using ⟨inEach _ rfl, inElements, inBody⟩

theorem catchClauses_yields : Yields whole (catchClauses grammar) (AreFrom whole) := by
  refine whileNext_yields ?_ _
  refine keyword_yields.andThen fun _ => symbol_yields.andThen fun _ =>
    (modifiers_yields yields).bind fun before inBefore =>
    (separated_yields (unannotatedType_yields yields) _).bind fun types inTypes =>
    (variableName_yields yields).bind fun (_, sizes) inSizes => symbol_yields.andThen fun _ =>
    (block_yields yields).bind fun handler inHandler => .pure ?_
  simpa using ⟨⟨inBefore, inTypes, inSizes⟩, inHandler⟩

theorem finallyClause_yields : Yields whole (finallyClause grammar) (AreFrom whole) := by
  unfold finallyClause
  refine optionalWord_yields.andThen fun _ => .ite ?_ (.pure areFrom_nil)
  exact (block_yields yields).bind fun body inBody => .pure (by simpa using inBody)

theorem resource_yields : Yields whole (resource grammar) (Code.From whole) := by
  unfold resource
  refine .orElse ?_ ?_
  · refine (modifiers_yields yields).bind fun before inBefore =>
      (unannotatedType_yields yields).bind fun type inType =>
      (variableName_yields yields).bind fun (_, sizes) inSizes => symbol_yields.andThen fun _ =>
      (yields.expression whole 0 true).bind fun value inValue => .pure ?_
    simpa using ⟨inBefore, inType, inSizes, inValue⟩
  · refine (yields.expression whole operandStrength true).bind fun value inValue => ?_
    split
    · exact .pure inValue
    · exact .pure inValue
    · exact .fail

theorem tryRule_yields : Yields whole (tryRule grammar) (Code.From whole) := by
  have another : Yields whole (do
      let _ ← symbol ";"
      if ← nextSymbol ")" then
        return .other []
      else
        resource grammar) (Code.From whole) :=
    symbol_yields.andThen fun _ => nextSymbol_yields.andThen fun _ =>
      .ite (.pure (by simp)) (resource_yields yields)
  unfold tryRule
  refine keyword_yields.andThen fun _ => optionalSymbol_yields.andThen fun _ => .ite ?_ ?_
  · refine (resource_yields yields).bind fun first inFirst =>
      (whileNext_yields another _).bind fun more inMore => symbol_yields.andThen fun _ =>
      (block_yields yields).bind fun body inBody => (catchClauses_yields yields).bind
      fun caught inCaught => (finallyClause_yields yields).bind fun last inLast => .pure ?_
    exact from_other.mpr (by simpa using ⟨inFirst, inMore, inBody, inCaught, inLast⟩)
  · refine (block_yields yields).bind fun body inBody => (catchClauses_yields yields).bind
      fun caught inCaught => nextWord_yields.andThen fun _ => .ite .fail_bind ?_
    refine (finallyClause_yields yields).bind fun last inLast => .pure ?_
    simpa using ⟨inBody, inCaught, inLast⟩

theorem introduced_yields {word : String} {rule : Parser Code}
    (isIntroduced : introduced grammar word = some rule) : Yields whole rule (Code.From whole) := by
  unfold introduced at isIntroduced
  split at isIntroduced <;> cases isIntroduced
  · exact ifRule_yields yields
  · exact whileRule_yields yields
  · exact doRule_yields yields
  · exact forRule_yields yields
  · exact tryRule_yields yields
  · exact jumpRule_yields
  · exact jumpRule_yields
  · exact returnRule_yields yields
  · exact skip_yields.andThen fun _ => expressionStatement_yields yields
  · exact assertRule_yields yields
  · exact switchRule_yields yields

omit yields in
theorem isWord_record_of_recordAhead {next : Token} {more : List Token}
    (isAhead : recordAhead (next :: more)) : next.isWord "record" := by
  unfold recordAhead at isAhead
  grind

omit yields in
/-- Where a type is declared, the token that the member begins with does not matter: that token gives a
method its line. -/
theorem memberAfter_start {inner : Setting → Parser Member} {before : Modifiers} {next : Token}
    {more : List Token} (introduces : introducesType next || recordAhead (next :: more))
    (start other : Token) : memberAfter grammar inner .classBody start before (next :: more) =
      memberAfter grammar inner .classBody other before (next :: more) := by
  have record : recordAhead (next :: more) → next.isWord "record" := isWord_record_of_recordAhead
  unfold memberAfter
  rw [bind_apply, bind_apply]
  refine congrFun (ite_congr rfl (fun _ => rfl) fun noClass => ite_congr rfl (fun _ => rfl)
    fun noInterface => ite_congr rfl (fun _ => rfl) fun noEnum => ite_congr rfl (fun _ => rfl)
    fun noAnnotation => ite_congr rfl (fun _ => rfl) fun noRecord => ?_) _
  simp only [introducesType, Token.isOneOf, Token.isWord] at *
  grind

variable {start : Token} {others : List Token} {before : Modifiers}
  (inBefore : AreFrom (start :: others) before.code)

include inBefore in
theorem modifiedItem_yields :
    Yields (start :: others) (modifiedItem grammar before) (Item.From (start :: others)) := by
  intro tokens value rest within read
  rcases tokens with _ | ⟨next, more⟩
  · cases read
  have opened : modifiedItem grammar before (next :: more) =
      (if introducesType next || recordAhead (next :: more) then _ else _ : Parser Item)
        (next :: more) := rfl
  by_cases introduces : introducesType next || recordAhead (next :: more)
  · rw [opened, if_pos introduces, bind_apply, memberAfter_start introduces next start] at read
    have member := memberAfter_yields yields inBefore .classBody fun setting =>
      memberRule_yields yields setting grammar.limit
    have item : Yields (start :: others) (do return Item.member (← memberAfter grammar
        (memberRule grammar grammar.limit) .classBody start before)) (Item.From (start :: others)) :=
      member.bind fun declaration origin => .pure origin
    exact item within read
  · rw [opened, if_neg introduces] at read
    refine Yields.ite ?_ (.ite ?_ ?_) within read
    · exact keyword_yields.andThen fun _ => (dottedName_yields _).andThen fun name =>
        symbol_yields.andThen fun _ => .pure trivial
    · exact optionalWord_yields.andThen fun _ => moduleTail_yields.andThen fun _ =>
        .pure (from_other.mpr inBefore)
    · exact (localsTail_yields yields inBefore).bind fun found inFound => .pure inFound

theorem plainStatement_yields {first : Token} :
    Yields whole (plainStatement grammar first) (Code.From whole) := by
  unfold plainStatement
  exact nextWordThen_yields.andThen fun _ => .ite (skip_yields.andThen fun _ => yields.statement whole)
    (simpleStatement_yields yields)

omit yields in
theorem code_yields {rule : Parser Code} (origin : Yields whole rule (Code.From whole)) :
    Yields whole (do return Item.code (← rule)) (Item.From whole) :=
  origin.bind fun _ inCode => .pure inCode

omit yields in
theorem itemAt_yields {next : Token → Parser Item}
    (onward : ∀ start others, Yields (start :: others) (next start) (Item.From (start :: others))) :
    Yields whole (firstToken >>= next) (Item.From whole) :=
  .firstToken fun start others within => (onward start others).mono fun _ origin => origin.mono within

theorem itemRule_yields : Yields whole (itemRule grammar) (Item.From whole) := by
  unfold itemRule
  refine ahead_yields.andThen fun tokens => itemAt_yields fun first others => ?_
  refine .ite (code_yields (block_yields yields)) ?_
  refine optionalSymbol_yields.andThen fun _ => .ite (.pure (from_other.mpr areFrom_nil)) ?_
  split
  · rename_i rule isRule
    rw [Option.ite_none_right_eq_some] at isRule
    exact code_yields (introduced_yields yields isRule.2)
  have modified : Yields (first :: others) (do modifiedItem grammar (← modifiers grammar))
      (Item.From (first :: others)) :=
    (modifiers_yields yields).bind fun before inBefore => modifiedItem_yields yields inBefore
  have ending : Yields (first :: others) (expressionStatement grammar) (Code.From (first :: others)) :=
    expressionStatement_yields yields
  refine .ite ?_ (.ite ?_ (.ite ?_ (.ite ?_ (.ite modified (code_yields (plainStatement_yields yields))))))
  · refine skip_yields.andThen fun _ => (condition_yields yields).bind fun lock inLock =>
      (block_yields yields).bind fun body inBody => .pure (from_other.mpr ?_)
    simpa using ⟨inLock, inBody⟩
  · exact code_yields (.orElse (skip_yields.andThen fun _ => ending) ending)
  · exact keyword_yields.andThen fun _ => optionalWord_yields.andThen fun _ =>
      (dottedName_yields _).andThen fun _ => optionalSymbol_yields.andThen fun _ => .ite
        (symbol_yields.andThen fun _ => symbol_yields.andThen fun _ => .pure trivial)
        (symbol_yields.andThen fun _ => .pure trivial)
  · exact modified.orElse (code_yields ending)

theorem statementRule_yields : Yields whole (statementRule grammar) (Code.From whole) := by
  unfold statementRule
  exact (itemRule_yields yields).bind fun item origin => .pure origin.toCode

theorem looseMethod_yields : Yields whole (looseMethod grammar) (Item.From whole) := by
  unfold looseMethod
  refine itemAt_yields fun start others => ?_
  exact (modifiers_yields yields).bind fun before inBefore =>
    (optionalTypeParameters_yields yields).bind fun parameters inParameters =>
    (annotationStretch_yields yields).bind fun after inAfter =>
    (unannotatedType_yields yields).bind fun type inType => word_yields.bind fun name named =>
    (methodTail_yields yields inBefore (areFrom_append.mpr ⟨inParameters, inAfter⟩) inType named).bind
      fun declaration origin => .pure origin

theorem fileItem_yields : Yields whole (fileItem grammar) (Item.From whole) := by
  unfold fileItem
  exact firstToken_yields.andThen fun _ => .ite (itemRule_yields yields)
    ((itemRule_yields yields).orElse (looseMethod_yields yields))

end Parser

end CallContext.Java
