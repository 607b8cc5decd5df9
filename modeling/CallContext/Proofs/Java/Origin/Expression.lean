import CallContext.Java.Parser.Expression
import CallContext.Proofs.Java.Origin.Type

namespace CallContext.Java.Parser

open Code

variable {grammar : Grammar} {whole : List Token}

theorem skip_yields {count : Nat} : Yields whole (skip count) fun _ => True := by
  intro tokens value rest within read
  cases read
  exact ⟨(List.drop_suffix count tokens).trans within, trivial⟩

theorem labelAhead_yields : Yields whole labelAhead fun _ => True := by
  intro tokens value rest within read
  unfold labelAhead at read
  split at read <;>
  · cases read
    exact ⟨within, trivial⟩

theorem receiverName_yields (limit : Nat) : Yields whole (receiverName limit) fun _ => True := by
  induction limit with
  | zero => exact .fail
  | succ limit ih =>
      rw [receiverName]
      refine optionalWord_yields.andThen fun _ => .ite (.pure trivial) ?_
      exact word_yields.andThen fun _ => symbol_yields.andThen fun _ => ih

variable (yields : grammar.Yields)

include yields

/-! ## Parts of operands -/

theorem argumentList_yields : Yields whole (argumentList grammar) (AreFrom whole) := by
  unfold argumentList
  exact symbol_yields.andThen fun _ => listUntil_yields (yields.expression whole 0 true) _

theorem condition_yields : Yields whole (condition grammar) (Code.From whole) := by
  unfold condition
  exact symbol_yields.andThen fun _ => (yields.expression whole 0 true).bind fun inner origin =>
    symbol_yields.andThen fun _ => .pure origin

theorem stringParts_yields : Yields whole (stringParts grammar) (AreFrom whole) := by
  have one : Yields whole (do
      if ← nextIs (·.kind == .interpolation) then
        let _ ← token (·.kind == .interpolation)
        let inner ← grammar.expression 0 true
        let _ ← symbol "\x7d"
        return [inner]
      else
        let _ ← token (·.kind == .fragment)
        return []) (AreFrom whole) := by
    refine nextIs_yields.andThen fun _ => .ite ?_ ?_
    · refine token_yields.andThen fun _ => (yields.expression whole 0 true).bind fun inner origin => ?_
      exact symbol_yields.andThen fun _ => .pure (by simp [origin])
    · exact token_yields.andThen fun _ => .pure areFrom_nil
  unfold stringParts
  exact (untilNext_yields one _).bind fun parts origins => .pure (areFrom_flatten origins)

theorem stringLiteral_yields : Yields whole (stringLiteral grammar) (Code.From whole) := by
  unfold stringLiteral
  refine token_yields.andThen fun _ => (stringParts_yields yields).bind fun parts origins => ?_
  exact token_yields.andThen fun _ => .pure (from_other.mpr origins)

theorem referenceTail_yields : Yields whole (referenceTail grammar) (AreFrom whole) := by
  unfold referenceTail
  exact symbol_yields.andThen fun _ => (optionalTypeArguments_yields yields).bind
    fun arguments origins => word_yields.andThen fun _ => .pure origins

theorem typeSelection_yields : Yields whole (typeSelection grammar) (Code.From whole) := by
  unfold typeSelection
  refine (yields.type whole).bind fun type inType => optionalSymbol_yields.andThen fun _ => .ite ?_ ?_
  · exact keyword_yields.andThen fun _ => .pure (from_other.mpr inType)
  · refine (referenceTail_yields yields).bind fun reference inReference => .pure ?_
    simpa using ⟨inType, inReference⟩

theorem arrayInitializer_yields (limit : Nat) :
    Yields whole (arrayInitializer grammar limit) (Code.From whole) := by
  induction limit with
  | zero => exact .fail
  | succ limit ih =>
      have one : Yields whole (do
          let value ←
            if ← nextSymbol "\x7b" then arrayInitializer grammar limit
            else grammar.expression 0 true
          if !(← nextSymbol "\x7d") then
            let _ ← symbol ","
          return value) (Code.From whole) := by
        have ends (value : Code) (origin : value.From whole) : Yields whole (do
            if !(← nextSymbol "\x7d") then
              let _ ← symbol ","
            return value) (Code.From whole) :=
          nextSymbol_yields.andThen fun _ =>
            .ite (symbol_yields.andThen fun _ => .pure origin) (.pure origin)
        exact nextSymbol_yields.andThen fun _ =>
          .ite (ih.bind ends) ((yields.expression whole 0 true).bind ends)
      rw [arrayInitializer]
      refine symbol_yields.andThen fun _ => optionalSymbol_yields.andThen fun _ => .ite ?_ ?_
      · exact symbol_yields.andThen fun _ => .pure (by simp)
      · refine (untilNext_yields one _).bind fun values origins => symbol_yields.andThen fun _ => ?_
        exact .pure (from_other.mpr origins)

theorem lengths_yields (limit : Nat) : Yields whole (lengths grammar limit) (AreFrom whole) := by
  induction limit with
  | zero => exact .pure areFrom_nil
  | succ limit ih =>
      rw [lengths]
      refine nextBrackets_yields.andThen fun _ => .ite (.pure areFrom_nil) ?_
      refine optionalSymbol_yields.andThen fun _ => .ite ?_ (.pure areFrom_nil)
      refine (yields.expression whole 0 true).bind fun length origin => symbol_yields.andThen fun _ =>
        ih.bind fun more origins => .pure ?_
      exact areFrom_cons.mpr ⟨origin, origins⟩

theorem creation_yields {outer : List Code} (inOuter : AreFrom whole outer) :
    Yields whole (creation grammar outer) (Code.From whole) := by
  unfold creation
  refine keyword_yields.andThen fun _ => (annotationStretch_yields yields).bind fun before inBefore =>
    (optionalTypeArguments_yields yields).bind fun arguments inArguments =>
    (annotationStretch_yields yields).bind fun between inBetween =>
    (simpleType_yields yields).bind fun type inType => ?_
  have inWritten : AreFrom whole
      (outer ++ before.code ++ arguments.code ++ between.code ++ type.code) := by
    simp [inOuter, inBefore, inArguments, inBetween, inType]
  generalize outer ++ before.code ++ arguments.code ++ between.code ++ type.code = written at inWritten ⊢
  refine nextSymbol_yields.andThen fun _ => .ite ?_ ?_
  · refine (argumentList_yields yields).bind fun values inValues =>
      nextSymbol_yields.andThen fun _ => .ite ?_ ?_
    · refine (yields.classBody whole).bind fun members origins => .pure ?_
      simp [inWritten, inValues, Member.areFrom_codes origins]
    · exact .pure (by simp [inWritten, inValues])
  · refine nextBrackets_yields.andThen fun _ => .ite ?_ ?_
    · refine (dimensions_yields yields _).bind fun empty inEmpty =>
        (arrayInitializer_yields yields _).bind fun values inValues => .pure ?_
      simp [inWritten, inEmpty, inValues]
    · have sized (after : List Code) (inAfter : AreFrom whole after) : Yields whole (do
          let sizes ← lengths grammar grammar.limit
          let empty ← dimensions grammar grammar.limit
          return Code.other (written ++ after ++ sizes ++ empty.code)) (Code.From whole) := by
        refine (lengths_yields yields _).bind fun sizes inSizes =>
          (dimensions_yields yields _).bind fun empty inEmpty => .pure ?_
        simp [inWritten, inAfter, inSizes, inEmpty]
      refine (annotationStretch_yields yields).bind fun after inAfter =>
        nextSymbol_yields.andThen fun _ => .ite ?_ (sized after.code inAfter)
      exact symbol_yields.andThen fun _ => sized after.code inAfter

/-! ## What follows an operand -/

section

variable {line : Nat} (onLine : ∃ token ∈ whole, token.line = line)

include onLine

theorem memberTail_yields {object : Code} (inObject : object.From whole) {typeArguments : List Code}
    (inArguments : AreFrom whole typeArguments) (name : Identifier) :
    Yields whole (memberTail grammar object typeArguments line name) (Code.From whole) := by
  unfold memberTail
  refine nextSymbol_yields.andThen fun _ => .ite ?_ (.pure (from_field.mpr inObject))
  exact (argumentList_yields yields).bind fun values inValues =>
    .pure (from_call.mpr ⟨⟨inObject, inArguments, inValues⟩, onLine⟩)

theorem selection_yields {object : Code} (inObject : object.From whole) :
    Yields whole (selection grammar object line) fun found => found.1.From whole := by
  have named (assignable : Code → Bool) : Yields whole (do
      let arguments ← optionalTypeArguments grammar
      let name ← identifier
      if !arguments.tokens.isEmpty && !(← nextSymbol "(") then
        let _ ← symbol "("
      let selected ← memberTail grammar object arguments.code line name
      return (selected, assignable selected)) fun found => found.1.From whole := by
    refine (optionalTypeArguments_yields yields).bind fun arguments inArguments =>
      identifier_yields.andThen fun name => nextSymbol_yields.andThen fun _ => ?_
    have selected := memberTail_yields yields onLine inObject inArguments name
    exact .ite (symbol_yields.andThen fun _ => selected.bind fun _ origin => .pure origin)
      (selected.bind fun _ origin => .pure origin)
  unfold selection
  refine symbol_yields.andThen fun _ => nextWord_yields.andThen fun _ => .ite ?_ ?_
  · exact (creation_yields yields (by simp [inObject])).bind fun found origin => .pure origin
  · refine nextWord_yields.andThen fun _ => .ite ?_ ?_
    · exact keyword_yields.andThen fun _ => .pure (by simp [inObject])
    · refine nextWord_yields.andThen fun _ => .ite ?_ ?_
      · exact keyword_yields.andThen fun _ => .pure (by simp [inObject])
      · refine nextIs_yields.andThen fun _ => .ite ?_ ?_
        · exact (stringLiteral_yields yields).bind fun text origin => .pure (by simp [inObject, origin])
        · exact optionalWord_yields.andThen fun _ =>
            .ite (symbol_yields.andThen fun _ => named _) (named _)

theorem suffixes_yields (limit : Nat) {operand : Code} (inOperand : operand.From whole)
    (assignable : Bool) :
    Yields whole (suffixes grammar line limit (operand, assignable)) fun found => found.1.From whole := by
  induction limit generalizing operand assignable with
  | zero => exact .pure inOperand
  | succ limit ih =>
      rw [suffixes]
      refine ahead_yields.andThen fun _ => .ite (.pure inOperand)
        (nextSymbol_yields.andThen fun _ => .ite ?_ ?_)
      · exact (selection_yields yields onLine inOperand).bind fun found origin => ih origin found.2
      · refine nextSymbol_yields.andThen fun _ => .ite ?_ ?_
        · refine symbol_yields.andThen fun _ => (yields.expression whole 0 true).bind fun index inIndex =>
            symbol_yields.andThen fun _ => ih ?_ true
          simp [inOperand, inIndex]
        · refine nextSymbol_yields.andThen fun _ => .ite ?_ (.pure inOperand)
          refine (referenceTail_yields yields).bind fun reference inReference => ih ?_ false
          simp [inOperand, inReference]

end

/-! ## Parameters, lambdas and casts -/

omit yields in
theorem inferredParameters_yields : Yields whole (inferredParameters grammar) (AreFrom whole) := by
  unfold inferredParameters
  exact symbol_yields.andThen fun _ => (listUntil_yields word_yields _).andThen fun _ => .pure areFrom_nil

theorem formalParameter_yields (isFirst : Bool) :
    Yields whole (formalParameter grammar isFirst) fun found => found.2.From whole := by
  unfold formalParameter
  refine (modifiers_yields yields).bind fun before inBefore =>
    (unannotatedType_yields yields).bind fun type inType => ?_
  have inside : AreFrom whole (before.code ++ type.code) := areFrom_append.mpr ⟨inBefore, inType⟩
  refine nextWord_yields.andThen fun _ => nextWordThen_yields.andThen fun _ => .ite ?_ ?_
  · exact (receiverName_yields _).andThen fun _ => .pure (from_other.mpr inside)
  · refine optionalSymbol_yields.andThen fun _ => .ite ?_ ?_
    · refine (annotationStretch_yields yields).bind fun after inAfter =>
        (variableName_yields yields).bind fun (_, sizes) inSizes => ?_
      have ends (value : List Code) (inValue : AreFrom whole value) :
          (Code.other (before.code ++ type.code ++ after.code ++ sizes ++ value)).From whole := by
        simpa using ⟨inBefore, inType, inAfter, inSizes, inValue⟩
      refine optionalSymbol_yields.andThen fun _ => .ite ?_ (.pure (ends [] areFrom_nil))
      refine nextSymbol_yields.andThen fun _ => .ite ?_ ?_
      · exact (arrayInitializer_yields yields _).bind fun value origin =>
          .pure (ends [value] (by simp [origin]))
      · exact (yields.expression whole 0 true).bind fun value origin =>
          .pure (ends [value] (by simp [origin]))
    · refine (variableName_yields yields).bind fun (_, sizes) inSizes => .pure ?_
      exact from_binding.mpr (areFrom_append.mpr ⟨inside, inSizes⟩)

theorem formalParameters_yields :
    Yields whole (formalParameters grammar) fun found => AreFrom whole found.2 := by
  have more : Yields whole (whileNext (·.isSymbol ",")
      (do let _ ← symbol ","; formalParameter grammar false) grammar.limit)
      fun found => ∀ parameter ∈ found, parameter.2.From whole :=
    whileNext_yields (symbol_yields.andThen fun _ => formalParameter_yields yields false) _
  unfold formalParameters
  refine symbol_yields.andThen fun _ => optionalSymbol_yields.andThen fun _ =>
    .ite (.pure areFrom_nil) ?_
  refine (formalParameter_yields yields true).bind fun first inFirst => more.bind fun rest inRest => ?_
  refine symbol_yields.andThen fun _ => .pure (areFrom_map fun found member => ?_)
  rcases List.mem_cons.mp member with rfl | later
  · exact inFirst
  · exact inRest found later

theorem lambdaTail_yields {parameters : List Code} (origins : AreFrom whole parameters) :
    Yields whole (lambdaTail grammar parameters) (Code.From whole) := by
  unfold lambdaTail
  refine symbol_yields.andThen fun _ => nextSymbol_yields.andThen fun _ => .ite ?_ ?_
  · exact (yields.statement whole).bind fun body inBody => .pure (by simp [origins, inBody])
  · exact (yields.expression whole 0 true).bind fun body inBody => .pure (by simp [origins, inBody])

theorem lambda_yields : Yields whole (lambda grammar) (Code.From whole) := by
  have declared : Yields whole (do return (← formalParameters grammar).2) (AreFrom whole) :=
    (formalParameters_yields yields).bind fun found origins => .pure origins
  unfold lambda
  exact (inferredParameters_yields.orElse declared).bind fun parameters origins =>
    lambdaTail_yields yields origins

theorem castExpression_yields (arrow : Bool) :
    Yields whole (castExpression grammar arrow) (Code.From whole) := by
  have more : Yields whole (whileNext (·.isSymbol "&") (do let _ ← symbol "&"; grammar.type)
      grammar.limit) fun types => ∀ type ∈ types, AreFrom whole type.code :=
    whileNext_yields (symbol_yields.andThen fun _ => yields.type whole) _
  unfold castExpression
  refine symbol_yields.andThen fun _ => nextIs_yields.andThen fun _ => .ite .fail_bind ?_
  refine (yields.type whole).bind fun first inFirst => more.bind fun others inOthers =>
    symbol_yields.andThen fun _ => nextIs_yields.andThen fun _ => .ite ?_ .fail
  refine (yields.expression whole _ arrow).bind fun value inValue => .pure ?_
  simpa using ⟨inFirst, inOthers, inValue⟩

/-! ## Patterns and switches -/

theorem recordPattern_yields (limit : Nat) :
    Yields whole (recordPattern grammar limit) (AreFrom whole) := by
  induction limit with
  | zero => exact .fail
  | succ limit ih =>
      have typed : Yields whole (do
          let type ← unannotatedType grammar
          if type.tokens.length == 1 && type.text == "_" then
            return []
          let _ ← word
          return type.code) (AreFrom whole) := by
        refine (unannotatedType_yields yields).bind fun type inType => .ite (.pure areFrom_nil) ?_
        exact word_yields.andThen fun _ => .pure inType
      rw [recordPattern]
      refine word_yields.andThen fun id => (optionalTypeArguments_yields yields).bind
        fun arguments inArguments => (typeTail_yields yields _).bind fun rest inRest =>
        .ite .fail_bind ?_
      refine symbol_yields.andThen fun _ => (listUntil_yields (ih.orElse typed) _).bind
        fun parts origins => .pure ?_
      simpa using ⟨⟨inArguments, inRest⟩, areFrom_flatten origins⟩

theorem testTail_yields : Yields whole (testTail grammar) (AreFrom whole) := by
  have typed : Yields whole (do
      let type ← grammar.type
      if ← nextIs (fun next => next.kind == .word && next.text != "instanceof") then
        let _ ← word
      return type.code) (AreFrom whole) := by
    refine (yields.type whole).bind fun type inType => nextIs_yields.andThen fun _ => .ite ?_ ?_
    · exact word_yields.andThen fun _ => .pure inType
    · exact .pure inType
  unfold testTail
  exact optionalWord_yields.andThen fun _ => (recordPattern_yields yields _).orElse typed

theorem casePattern_yields : Yields whole (casePattern grammar) (AreFrom whole) := by
  have typed : Yields whole (do
      let type ← unannotatedType grammar
      let _ ← token fun name => name.kind == .word && name.text != "when"
      return type.code) (AreFrom whole) :=
    (unannotatedType_yields yields).bind fun type inType => token_yields.andThen fun _ => .pure inType
  unfold casePattern
  exact ((recordPattern_yields yields _).orElse typed).bind fun found origins =>
    nextIs_yields.andThen fun _ => .ite (.pure origins) .fail

theorem switchLabel_yields : Yields whole (switchLabel grammar) (AreFrom whole) := by
  have values : Yields whole (separated "," grammar.limit (grammar.expression 0 false))
      (AreFrom whole) :=
    separated_yields (yields.expression whole 0 false) _
  unfold switchLabel
  refine optionalWord_yields.andThen fun _ => .ite (.pure areFrom_nil) ?_
  refine keyword_yields.andThen fun _ => ((casePattern_yields yields).orElse values).bind
    fun found origins => optionalWord_yields.andThen fun _ => .ite ?_ (.pure origins)
  exact (yields.expression whole 0 false).bind fun guard inGuard =>
    .pure (areFrom_append.mpr ⟨origins, by simp [inGuard]⟩)

theorem moreLabels_yields (limit : Nat) : Yields whole (moreLabels grammar limit) (AreFrom whole) := by
  induction limit with
  | zero => exact .pure areFrom_nil
  | succ limit ih =>
      rw [moreLabels]
      refine labelAhead_yields.andThen fun _ => .ite ?_ (.pure areFrom_nil)
      exact (switchLabel_yields yields).bind fun label inLabel => symbol_yields.andThen fun _ =>
        ih.bind fun more inMore => .pure (areFrom_append.mpr ⟨inLabel, inMore⟩)

theorem groupStatements_yields (limit : Nat) :
    Yields whole (groupStatements grammar limit) (AreFrom whole) := by
  induction limit with
  | zero => exact .fail
  | succ limit ih =>
      rw [groupStatements]
      refine labelAhead_yields.andThen fun _ => nextSymbol_yields.andThen fun _ =>
        .ite (.pure areFrom_nil) ?_
      exact (yields.statement whole).bind fun first inFirst => ih.bind fun rest inRest =>
        .pure (areFrom_cons.mpr ⟨inFirst, inRest⟩)

theorem ruleBody_yields : Yields whole (ruleBody grammar) (Code.From whole) := by
  unfold ruleBody
  refine nextSymbol_yields.andThen fun _ => nextWord_yields.andThen fun _ =>
    .ite (yields.statement whole) ?_
  exact (yields.expression whole 0 true).bind fun body inBody => symbol_yields.andThen fun _ =>
    .pure inBody

theorem switchGroup_yields : Yields whole (switchGroup grammar) (AreFrom whole) := by
  unfold switchGroup
  exact symbol_yields.andThen fun _ => (moreLabels_yields yields _).bind fun labels inLabels =>
    (groupStatements_yields yields _).bind fun statements inStatements =>
      .pure (areFrom_append.mpr ⟨inLabels, inStatements⟩)

theorem switchBody_yields : Yields whole (switchBody grammar) (AreFrom whole) := by
  have group : Yields whole (do
      let label ← switchLabel grammar
      return label ++ (← switchGroup grammar)) (AreFrom whole) :=
    (switchLabel_yields yields).bind fun label inLabel => (switchGroup_yields yields).bind
      fun group inGroup => .pure (areFrom_append.mpr ⟨inLabel, inGroup⟩)
  have rule : Yields whole (do
      let label ← switchLabel grammar
      let _ ← symbol "->"
      return label ++ [← ruleBody grammar]) (AreFrom whole) :=
    (switchLabel_yields yields).bind fun label inLabel => symbol_yields.andThen fun _ =>
      (ruleBody_yields yields).bind fun body inBody =>
        .pure (areFrom_append.mpr ⟨inLabel, by simp [inBody]⟩)
  unfold switchBody
  refine symbol_yields.andThen fun _ => optionalSymbol_yields.andThen fun _ =>
    .ite (.pure areFrom_nil) ?_
  refine (switchLabel_yields yields).bind fun label inLabel => nextSymbol_yields.andThen fun _ =>
    .ite ?_ ?_
  · refine (switchGroup_yields yields).bind fun first inFirst => (untilNext_yields group _).bind
      fun rest inRest => symbol_yields.andThen fun _ => .pure ?_
    simpa using ⟨inLabel, inFirst, areFrom_flatten inRest⟩
  · refine symbol_yields.andThen fun _ => (ruleBody_yields yields).bind fun first inFirst =>
      (untilNext_yields rule _).bind fun rest inRest => symbol_yields.andThen fun _ => .pure ?_
    simpa using ⟨inLabel, inFirst, areFrom_flatten inRest⟩

theorem switchRule_yields : Yields whole (switchRule grammar) (Code.From whole) := by
  unfold switchRule
  exact keyword_yields.andThen fun _ => (condition_yields yields).bind fun subject inSubject =>
    (switchBody_yields yields).bind fun body inBody => .pure (by simp [inSubject, inBody])

/-! ## Operands and operators -/

section

variable {line : Nat} (onLine : ∃ token ∈ whole, token.line = line)

include onLine

theorem parenthesis_yields (arrow : Bool) :
    Yields whole (parenthesis grammar arrow line) fun found => found.1.From whole := by
  have enclosed : Yields whole (do
      let inner ← condition grammar
      suffixes grammar line grammar.limit (.parenthesized inner, false))
      fun found => found.1.From whole :=
    (condition_yields yields).bind fun inner origin =>
      suffixes_yields yields onLine _ (from_parenthesized.mpr origin) false
  have cast : Yields whole (do return (← castExpression grammar arrow, false))
      fun found => found.1.From whole :=
    (castExpression_yields yields arrow).bind fun found origin => .pure origin
  unfold parenthesis
  refine ahead_yields.andThen fun tokens => .ite ?_ (.ite enclosed (cast.orElse enclosed))
  exact (lambda_yields yields).bind fun found origin => .pure origin

theorem selectedType_yields : Yields whole (do
    suffixes grammar line grammar.limit (← typeSelection grammar, false))
    fun found => found.1.From whole :=
  (typeSelection_yields yields).bind fun _ origin => suffixes_yields yields onLine _ origin false

theorem nameOperand_yields (arrow : Bool) :
    Yields whole (nameOperand grammar arrow line) fun found => found.1.From whole := by
  unfold nameOperand
  refine identifier_yields.andThen fun id => nextSymbol_yields.andThen fun _ => .ite ?_ ?_
  · exact (lambdaTail_yields yields areFrom_nil).bind fun found origin => .pure origin
  · refine nextSymbol_yields.andThen fun _ => .ite ?_ (suffixes_yields yields onLine _ from_name true)
    refine (argumentList_yields yields).bind fun values inValues => suffixes_yields yields onLine _ ?_ false
    exact from_call.mpr ⟨⟨from_implicit, areFrom_nil, inValues⟩, onLine⟩

end

theorem wordOperand_yields (arrow : Bool) {first : Token} (member : first ∈ whole) :
    Yields whole (wordOperand grammar arrow first) fun found => found.1.From whole := by
  have onLine : ∃ token ∈ whole, token.line = first.line := ⟨first, member, rfl⟩
  have ends {operand : Code} (origin : operand.From whole) :=
    suffixes_yields yields onLine grammar.limit origin false
  have selected := selectedType_yields yields onLine
  have named := nameOperand_yields yields onLine arrow
  unfold wordOperand
  refine .ite ?_ (.ite ?_ (.ite ?_ (.ite ?_ (.ite ?_ (.ite selected ?_)))))
  · exact (creation_yields yields areFrom_nil).bind fun found origin => ends origin
  · exact word_yields.andThen fun _ => ends from_this
  · refine word_yields.andThen fun _ => nextSymbol_yields.andThen fun _ =>
      nextSymbol_yields.andThen fun _ => .ite ?_ (ends from_super)
    exact symbol_yields.andThen fun _ => ends from_super
  · exact word_yields.andThen fun _ => ends (from_other.mpr areFrom_nil)
  · exact (switchRule_yields yields).bind fun found origin => .pure origin
  · exact ahead_yields.andThen fun tokens => .ite (selected.orElse named) named

theorem operand_yields (arrow : Bool) :
    Yields whole (operand grammar arrow) fun found => found.1.From whole := by
  intro tokens value rest within read
  cases tokens with
  | nil => cases read
  | cons first others =>
      have member := mem_of_cons within
      have onLine : ∃ token ∈ whole, token.line = first.line := ⟨first, member, rfl⟩
      have ends {operand : Code} (origin : operand.From whole) :=
        suffixes_yields yields onLine grammar.limit origin false
      have literal : Yields whole (do
          let _ ← token fun next => next.kind == TokenKind.literal
          suffixes grammar first.line grammar.limit (.other [], false))
          fun found => found.1.From whole :=
        token_yields.andThen fun _ => ends (from_other.mpr areFrom_nil)
      have text : Yields whole (do
          suffixes grammar first.line grammar.limit (← stringLiteral grammar, false))
          fun found => found.1.From whole :=
        (stringLiteral_yields yields).bind fun found origin => ends origin
      have signed : Yields whole (do
          skip 1
          return (Code.other [← grammar.expression operandStrength arrow], false))
          fun found => found.1.From whole :=
        skip_yields.andThen fun _ => (yields.expression whole _ arrow).bind fun found origin =>
          .pure (by simp [origin])
      rw [operand] at read
      split at read
      · exact wordOperand_yields yields arrow member within read
      · exact literal within read
      · exact text within read
      · split_ifs at read
        · exact parenthesis_yields yields onLine arrow within read
        · exact selectedType_yields yields onLine within read
        · exact signed within read
      · cases read

theorem operators_yields (strength : Nat) (arrow : Bool) (limit : Nat) {left : Code}
    (inLeft : left.From whole) :
    Yields whole (operators grammar strength arrow limit left) (Code.From whole) := by
  induction limit generalizing left with
  | zero => exact .pure inLeft
  | succ limit ih =>
      rw [operators]
      refine ahead_yields.andThen fun tokens => ?_
      rcases signAhead tokens with ⟨sign, count⟩
      refine .ite ?_ (.ite ?_ (nextWord_yields.andThen fun _ => .ite ?_ ?_))
      · exact skip_yields.andThen fun _ => ih (by simp [inLeft])
      · refine skip_yields.andThen fun _ => (yields.expression whole 0 true).bind fun chosen inChosen =>
          symbol_yields.andThen fun _ => (yields.expression whole _ arrow).bind
            fun alternative inAlternative => ih ?_
        simp [inLeft, inChosen, inAlternative]
      · exact skip_yields.andThen fun _ => (testTail_yields yields).bind fun test inTest =>
          ih (by simp [inLeft, inTest])
      · cases infixStrength sign with
        | none => exact .pure inLeft
        | some own =>
            refine .ite ?_ (.pure inLeft)
            exact skip_yields.andThen fun _ => (yields.expression whole _ arrow).bind
              fun right inRight => ih (by simp [inLeft, inRight])

theorem expressionRule_yields (strength : Nat) (arrow : Bool) :
    Yields whole (expressionRule grammar strength arrow) (Code.From whole) := by
  unfold expressionRule
  refine (operand_yields yields arrow).bind fun (first, assignable) inFirst =>
    ahead_yields.andThen fun tokens => ?_
  rcases signAhead tokens with ⟨sign, count⟩
  refine .ite (skip_yields.andThen fun _ => .fail)
    (.ite ?_ (operators_yields yields strength arrow _ inFirst))
  refine skip_yields.andThen fun _ => (yields.expression whole 0 arrow).bind fun value inValue => ?_
  exact .pure (by simpa using ⟨inFirst, inValue⟩)

end CallContext.Java.Parser
