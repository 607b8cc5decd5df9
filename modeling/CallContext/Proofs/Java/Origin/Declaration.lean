import CallContext.Java.Parser.Declaration
import CallContext.Proofs.Java.Origin.Expression

namespace CallContext.Java.Parser

open Code

variable {grammar : Grammar} {whole : List Token}

theorem firstToken_yields : Yields whole firstToken (· ∈ whole) := by
  intro tokens value rest within read
  cases tokens with
  | nil => cases read
  | cons first others =>
      cases read
      exact ⟨within, mem_of_cons within⟩

theorem Yields.firstToken {α : Type} {next : Token → Parser α} {post : α → Prop}
    (onward : ∀ start others, start :: others <:+ whole → Yields (start :: others) (next start) post) :
    Yields whole (Parser.firstToken >>= next) post := by
  intro tokens value rest within read
  cases tokens with
  | nil => cases read
  | cons start others =>
      obtain ⟨inside, holds⟩ := onward start others within List.suffix_rfl read
      exact ⟨inside.trans within, holds⟩

variable (yields : grammar.Yields)

include yields

theorem declarator_yields : Yields whole (declarator grammar) fun found => found.2.From whole := by
  unfold declarator
  refine (variableName_yields yields).bind fun (_, sizes) inSizes =>
    optionalSymbol_yields.andThen fun _ => .ite ?_ (.pure (by simpa using inSizes))
  refine nextSymbol_yields.andThen fun _ => .ite ?_ ?_
  · exact (arrayInitializer_yields yields _).bind fun value inValue =>
      .pure (by simpa using ⟨inSizes, inValue⟩)
  · exact (yields.expression whole 0 true).bind fun value inValue =>
      .pure (by simpa using ⟨inSizes, inValue⟩)

theorem declarators_yields : Yields whole (declarators grammar) fun found =>
    AreFrom whole (found.map (·.2)) := by
  unfold declarators
  exact (separated_yields (declarator_yields yields) _).bind fun found origins =>
    symbol_yields.andThen fun _ => .pure (areFrom_map origins)

theorem optionalThrows_yields : Yields whole (optionalThrows grammar) (AreFrom whole) := by
  unfold optionalThrows
  refine optionalWord_yields.andThen fun _ => .ite ?_ (.pure areFrom_nil)
  exact (typesSeparated_yields yields).bind fun types origins => .pure (by simpa using origins)

theorem optionalTypes_yields {introduction : String} :
    Yields whole (optionalTypes grammar introduction) fun types =>
      ∀ type ∈ types, AreFrom whole type.code := by
  unfold optionalTypes
  exact optionalWord_yields.andThen fun _ => .ite (typesSeparated_yields yields) (.pure (by simp))

theorem methodTail_yields {start : Token} {others : List Token} {before : Modifiers}
    (inBefore : AreFrom (start :: others) before.code) {typeParameters : List Code}
    (inTypeParameters : AreFrom (start :: others) typeParameters) {type : Stretch}
    (inType : AreFrom (start :: others) type.code) {name : String} (named : isIdentifier name) :
    Yields (start :: others) (methodTail grammar start before typeParameters type name)
      fun declaration => (Member.method declaration).From (start :: others) := by
  unfold methodTail
  refine (formalParameters_yields yields).bind fun (parameters, inside) inParameters =>
    (dimensions_yields yields _).bind fun after inAfter =>
    (optionalThrows_yields yields).bind fun thrown inThrown => ?_
  have heading : AreFrom (start :: others)
      (before.code ++ typeParameters ++ type.code ++ inside ++ after.code ++ thrown) := by
    simpa using ⟨inBefore, inTypeParameters, inType, inParameters, inAfter, inThrown⟩
  refine nextSymbol_yields.andThen fun _ => .ite ?_ ?_
  · refine (yields.statement _).bind fun body inBody => .pure (Member.from_method.mpr ⟨⟨heading, ?_⟩, ?_⟩)
    · simpa using inBody
    · exact ⟨named, start, others, List.suffix_rfl, rfl, by simpa using inBody⟩
  · refine symbol_yields.andThen fun _ => .pure (Member.from_method.mpr ⟨⟨heading, by simp⟩, ?_⟩)
    exact ⟨named, start, others, List.suffix_rfl, rfl, by simp⟩

theorem blockStatements_yields : Yields whole (blockStatements grammar) (AreFrom whole) := by
  unfold blockStatements
  exact (untilNext_yields (yields.statement whole) _).bind fun statements origins =>
    symbol_yields.andThen fun _ => .pure origins

theorem block_yields : Yields whole (block grammar) (Code.From whole) := by
  unfold block
  exact symbol_yields.andThen fun _ => (blockStatements_yields yields).bind fun statements origins =>
    .pure (from_other.mpr origins)

theorem constructorCall_yields : Yields whole (constructorCall grammar) (AreFrom whole) := by
  unfold constructorCall
  refine (optionalTypeArguments_yields yields).bind fun arguments inArguments =>
    token_yields.andThen fun _ => (argumentList_yields yields).bind fun values inValues =>
    symbol_yields.andThen fun _ => .pure ?_
  exact areFrom_append.mpr ⟨inArguments, inValues⟩

theorem outerConstructorCall_yields : Yields whole (outerConstructorCall grammar) (AreFrom whole) := by
  unfold outerConstructorCall
  refine nextWord_yields.andThen fun _ => .ite .fail_bind
    ((operand_yields yields false).bind fun (object, _) inObject => ?_)
  have rest : Yields whole (do
      let _ ← symbol "."
      let _ ← keyword "super"
      let values ← argumentList grammar
      let _ ← symbol ";"
      return object :: values) (AreFrom whole) := by
    refine symbol_yields.andThen fun _ => keyword_yields.andThen fun _ =>
      (argumentList_yields yields).bind fun values inValues => symbol_yields.andThen fun _ => .pure ?_
    exact areFrom_cons.mpr ⟨inObject, inValues⟩
  exact .ite .fail_bind rest

theorem constructorBody_yields : Yields whole (constructorBody grammar) (AreFrom whole) := by
  unfold constructorBody
  refine symbol_yields.andThen fun _ => ((constructorCall_yields yields).orElse
    ((outerConstructorCall_yields yields).orElse (.pure areFrom_nil))).bind fun call inCall =>
    (blockStatements_yields yields).bind fun statements origins => .pure ?_
  exact areFrom_append.mpr ⟨inCall, origins⟩

theorem constructorTail_yields {heading : List Code} (inHeading : AreFrom whole heading) :
    Yields whole (constructorTail grammar heading) (Member.From whole) := by
  unfold constructorTail
  refine (formalParameters_yields yields).bind fun (_, inside) inParameters =>
    (optionalThrows_yields yields).bind fun thrown inThrown =>
    (constructorBody_yields yields).bind fun body inBody => .pure ?_
  simpa using ⟨inHeading, inParameters, inThrown, inBody⟩

section

variable {one : Parser Member} (single : Yields whole one (Member.From whole))

include single

omit yields in
theorem membersUntilBrace_yields : Yields whole (membersUntilBrace grammar one)
    fun members => ∀ member ∈ members, member.From whole := by
  have each : Yields whole (do
      if ← optionalSymbol ";" then
        return []
      return [← one]) fun members => ∀ member ∈ members, member.From whole := by
    refine optionalSymbol_yields.andThen fun _ => .ite (.pure (by simp)) ?_
    exact single.bind fun member origin => .pure (by simpa using origin)
  unfold membersUntilBrace
  refine (untilNext_yields each _).bind fun found origins => symbol_yields.andThen fun _ => .pure ?_
  intro member listed
  obtain ⟨members, among, inside⟩ := List.mem_flatten.mp listed
  exact origins members among member inside

omit single in
theorem enumConstant_yields : Yields whole (enumConstant grammar) (Member.From whole) := by
  have rest {before values : List Code} (inBefore : AreFrom whole before)
      (inValues : AreFrom whole values) : Yields whole (do
        if ← nextSymbol "\x7b" then
          return .other (before ++ values ++ Member.codes (← grammar.classBody))
        return Member.other (before ++ values)) (Member.From whole) := by
    refine nextSymbol_yields.andThen fun _ => .ite ?_ (.pure (by simpa using ⟨inBefore, inValues⟩))
    refine (yields.classBody whole).bind fun members origins => .pure ?_
    simpa using ⟨inBefore, inValues, Member.areFrom_codes origins⟩
  unfold enumConstant
  refine (modifiers_yields yields).bind fun before inBefore => word_yields.andThen fun _ =>
    nextSymbol_yields.andThen fun _ => .ite ?_ (rest inBefore areFrom_nil)
  exact (argumentList_yields yields).bind fun values inValues => rest inBefore inValues

omit single in
theorem enumConstants_yields : Yields whole (enumConstants grammar)
    fun members => ∀ member ∈ members, member.From whole := by
  have each : Yields whole (do
      let constant ← enumConstant grammar
      if !(← nextIs fun next => next.isSymbol ";" || next.isSymbol "\x7d") then
        let _ ← symbol ","
      return constant) (Member.From whole) := by
    refine (enumConstant_yields yields).bind fun constant origin => nextIs_yields.andThen fun _ =>
      .ite ?_ (.pure origin)
    exact symbol_yields.andThen fun _ => .pure origin
  unfold enumConstants
  exact optionalSymbol_yields.andThen fun _ => .ite (.pure (by simp)) (untilNext_yields each _)

theorem enumBody_yields : Yields whole (enumBody grammar one)
    fun members => ∀ member ∈ members, member.From whole := by
  unfold enumBody
  refine symbol_yields.andThen fun _ => (enumConstants_yields yields).bind fun constants inConstants =>
    optionalSymbol_yields.andThen fun _ => .ite ?_ ?_
  · refine (membersUntilBrace_yields single).bind fun members inMembers => .pure ?_
    intro member listed
    exact (List.mem_append.mp listed).elim (inConstants member) (inMembers member)
  · exact symbol_yields.andThen fun _ => .pure inConstants

variable {before : Modifiers} (inBefore : AreFrom whole before.code)

include inBefore

omit single in
theorem classTail_yields : Yields whole (classTail grammar before) (Member.From whole) := by
  have rest {name : Identifier} {parameters : List Code} {superclass : List Stretch}
      (inParameters : AreFrom whole parameters)
      (inSuperclass : ∀ type ∈ superclass, AreFrom whole type.code) : Yields whole (do
        let interfaces ← optionalTypes grammar "implements"
        let permitted ← optionalTypes grammar "permits"
        let members ← grammar.classBody
        return .type ⟨.classKind, name, before.names, (superclass ++ interfaces).map (·.text), [],
          before.code ++ parameters ++ (Stretch.concat (superclass ++ interfaces ++ permitted)).code⟩
          members) (Member.From whole) := by
    refine (optionalTypes_yields yields).bind fun interfaces inInterfaces =>
      (optionalTypes_yields yields).bind fun permitted inPermitted =>
      (yields.classBody whole).bind fun members origins => .pure (Member.from_type ?_ origins)
    simpa [or_imp, forall_and] using ⟨inBefore, inParameters, inSuperclass, inInterfaces, inPermitted⟩
  unfold classTail
  refine identifier_yields.andThen fun name => (optionalTypeParameters_yields yields).bind
    fun parameters inParameters => optionalWord_yields.andThen fun _ => .ite ?_ ?_
  · exact (yields.type whole).bind fun superclass inSuperclass =>
      rest inParameters (by simpa using inSuperclass)
  · exact rest inParameters (by simp)

theorem interfaceTail_yields : Yields whole (interfaceTail grammar before one) (Member.From whole) := by
  unfold interfaceTail
  refine identifier_yields.andThen fun name => (optionalTypeParameters_yields yields).bind
    fun parameters inParameters => (optionalTypes_yields yields).bind fun extended inExtended =>
    (optionalTypes_yields yields).bind fun permitted inPermitted => symbol_yields.andThen fun _ =>
    (membersUntilBrace_yields single).bind fun members origins => .pure (Member.from_type ?_ origins)
  simpa [or_imp, forall_and] using ⟨inBefore, inParameters, inExtended, inPermitted⟩

theorem enumTail_yields : Yields whole (enumTail grammar before one) (Member.From whole) := by
  unfold enumTail
  refine identifier_yields.andThen fun name => (optionalTypes_yields yields).bind
    fun interfaces inInterfaces => (enumBody_yields yields single).bind fun members origins =>
    .pure (Member.from_type ?_ origins)
  simpa using ⟨inBefore, inInterfaces⟩

omit single in
theorem recordTail_yields : Yields whole (recordTail grammar before) (Member.From whole) := by
  unfold recordTail
  refine identifier_yields.andThen fun name => (optionalTypeParameters_yields yields).bind
    fun parameters inParameters => (formalParameters_yields yields).bind
    fun (components, inside) inComponents => (optionalTypes_yields yields).bind
    fun interfaces inInterfaces => (yields.classBody whole).bind fun members origins =>
    .pure (Member.from_type ?_ origins)
  simpa using ⟨inBefore, inParameters, inComponents, inInterfaces⟩

end

theorem elementTail_yields : Yields whole (elementTail grammar) (AreFrom whole) := by
  unfold elementTail
  refine symbol_yields.andThen fun _ => symbol_yields.andThen fun _ =>
    (dimensions_yields yields _).bind fun after inAfter => optionalWord_yields.andThen fun _ =>
    .ite ?_ (symbol_yields.andThen fun _ => .pure inAfter)
  refine (elementValue_yields yields _).bind fun value inValue => symbol_yields.andThen fun _ => .pure ?_
  exact areFrom_append.mpr ⟨inAfter, inValue⟩

variable {start : Token} {others : List Token} {before : Modifiers}
  (inBefore : AreFrom (start :: others) before.code) (setting : Setting)

include inBefore

theorem typedMember_yields {typeParameters : List Code}
    (inTypeParameters : AreFrom (start :: others) typeParameters) :
    Yields (start :: others) (typedMember grammar setting start before typeParameters)
      (Member.From (start :: others)) := by
  unfold typedMember
  refine (unannotatedType_yields yields).bind fun type inType => nextWordThen_yields.andThen fun _ =>
    .ite ?_ ?_
  · refine word_yields.bind fun name named => .ite ?_ ?_
    · refine (elementTail_yields yields).bind fun value inValue => .pure ?_
      simpa using ⟨inBefore, inType, inValue⟩
    · exact (methodTail_yields yields inBefore inTypeParameters inType named).bind
        fun declaration origin => .pure origin
  · refine (declarators_yields yields).bind fun found inFound => .pure ?_
    simpa using ⟨inBefore, inType, inFound⟩

theorem memberAfter_yields {inner : Setting → Parser Member}
    (within : ∀ setting, Yields (start :: others) (inner setting) (Member.From (start :: others))) :
    Yields (start :: others) (memberAfter grammar inner setting start before)
      (Member.From (start :: others)) := by
  unfold memberAfter
  refine firstToken_yields.andThen fun next => .ite ?_ (.ite ?_ (.ite ?_ (.ite ?_ (.ite ?_ (.ite ?_ ?_)))))
  · exact word_yields.andThen fun _ => classTail_yields yields inBefore
  · exact word_yields.andThen fun _ => interfaceTail_yields yields (within _) inBefore
  · exact word_yields.andThen fun _ => enumTail_yields yields (within _) inBefore
  · refine skip_yields.andThen fun _ => word_yields.andThen fun _ => symbol_yields.andThen fun _ =>
      (membersUntilBrace_yields (within _)).bind fun members origins => .pure ?_
    simpa using ⟨inBefore, Member.areFrom_codes origins⟩
  · exact word_yields.andThen fun _ => recordTail_yields yields inBefore
  · exact (block_yields yields).bind fun body inBody => .pure (by simpa using inBody)
  refine nextWordThen_yields.andThen fun _ => .ite ?_ (nextWordThen_yields.andThen fun _ => .ite ?_
    (.ite ?_ (typedMember_yields yields inBefore setting areFrom_nil)))
  · exact word_yields.andThen fun _ => constructorTail_yields yields inBefore
  · refine word_yields.andThen fun _ => (block_yields yields).bind fun body inBody => .pure ?_
    simpa using ⟨inBefore, inBody⟩
  · refine (optionalTypeParameters_yields yields).bind fun parameters inParameters =>
      (annotationStretch_yields yields).bind fun after inAfter => nextWordThen_yields.andThen fun _ =>
      .ite ?_ ?_
    · exact word_yields.andThen fun _ =>
        constructorTail_yields yields (areFrom_append.mpr ⟨inBefore, inParameters⟩)
    · exact (unannotatedType_yields yields).bind fun type inType => word_yields.bind fun name named =>
        (methodTail_yields yields inBefore (areFrom_append.mpr ⟨inParameters, inAfter⟩) inType named).bind
          fun declaration origin => .pure origin

omit inBefore

theorem memberRule_yields (limit : Nat) :
    Yields whole (memberRule grammar limit setting) (Member.From whole) := by
  induction limit generalizing whole setting with
  | zero => exact .fail
  | succ limit ih =>
      rw [memberRule]
      refine .firstToken fun start others within => ?_
      refine (modifiers_yields yields).bind fun before inBefore => ?_
      exact (memberAfter_yields yields inBefore setting fun _ => ih _).mono fun member origin =>
        origin.mono within

theorem classBodyRule_yields : Yields whole (classBodyRule grammar)
    fun members => ∀ member ∈ members, member.From whole := by
  unfold classBodyRule
  exact symbol_yields.andThen fun _ => membersUntilBrace_yields (memberRule_yields yields _ _)

omit yields

theorem nameList_yields : Yields whole (nameList grammar) fun _ => True := by
  unfold nameList
  exact (separated_yields (dottedName_yields _) _).andThen fun _ => .pure trivial

theorem moduleDirective_yields : Yields whole (moduleDirective grammar) fun _ => True := by
  have ending : Yields whole (do let _ ← symbol ";") fun _ => True :=
    symbol_yields.andThen fun _ => .pure trivial
  unfold moduleDirective
  refine word_yields.andThen fun first => .ite ?_ (.ite ?_ (.ite ?_ (.ite ?_ .fail_bind)))
  · exact (whileNext_yields word_yields _).andThen fun _ =>
      (dottedName_yields _).andThen fun _ => ending
  · exact (dottedName_yields _).andThen fun _ => optionalWord_yields.andThen fun _ =>
      .ite (nameList_yields.andThen fun _ => ending) ending
  · exact (dottedName_yields _).andThen fun _ => ending
  · exact (dottedName_yields _).andThen fun _ => keyword_yields.andThen fun _ =>
      nameList_yields.andThen fun _ => ending

theorem moduleTail_yields : Yields whole (moduleTail grammar) fun _ => True := by
  unfold moduleTail
  exact keyword_yields.andThen fun _ => (dottedName_yields _).andThen fun _ =>
    symbol_yields.andThen fun _ => (untilNext_yields moduleDirective_yields _).andThen fun _ =>
    symbol_yields.andThen fun _ => .pure trivial

end CallContext.Java.Parser
