import CallContext.Java.Parser.Type
import CallContext.Proofs.Java.Origin.Basic

namespace CallContext.Java

namespace Stretch

@[simp] theorem code_empty : empty.code = [] := rfl

@[simp] theorem code_single (token : Token) : (single token).code = [] := rfl

@[simp] theorem areFrom_concat {tokens : List Token} {stretches : List Stretch} :
    Code.AreFrom tokens (concat stretches).code ↔
      ∀ stretch ∈ stretches, Code.AreFrom tokens stretch.code := by
  simp only [Code.AreFrom, concat, List.mem_flatMap]
  constructor
  · intro all stretch listed code inside
    exact all code ⟨stretch, listed, inside⟩
  · rintro all code ⟨stretch, listed, inside⟩
    exact all stretch listed code inside

end Stretch

structure Grammar.Yields (grammar : Grammar) : Prop where
  type : ∀ whole, Parser.Yields whole grammar.type fun stretch => Code.AreFrom whole stretch.code
  marker : ∀ whole, Parser.Yields whole grammar.marker fun found => Code.AreFrom whole found.stretch.code
  expression : ∀ whole strength arrow,
    Parser.Yields whole (grammar.expression strength arrow) (Code.From whole)
  statement : ∀ whole, Parser.Yields whole grammar.statement (Code.From whole)
  classBody : ∀ whole,
    Parser.Yields whole grammar.classBody fun members => ∀ member ∈ members, member.From whole

namespace Parser

open Code

variable {grammar : Grammar} {whole : List Token}

theorem nameTail_yields (limit : Nat) : Yields whole (nameTail limit) fun _ => True := by
  induction limit with
  | zero => exact .pure trivial
  | succ limit ih =>
      have more (dot next : Token) :
          Yields whole (do return dot :: next :: (← nameTail limit)) fun _ => True :=
        ih.andThen fun _ => .pure trivial
      intro tokens value rest within read
      rw [nameTail] at read
      beta_reduce at read
      split at read
      · split_ifs at read
        · exact more _ _ (suffix_of_cons (suffix_of_cons within)) read
        · cases read
          exact ⟨within, trivial⟩
      · cases read
        exact ⟨within, trivial⟩

theorem dottedName_yields (limit : Nat) : Yields whole (dottedName limit) fun _ => True := by
  unfold dottedName
  exact word_yields.andThen fun _ => (nameTail_yields limit).andThen fun _ => .pure trivial

theorem nextWordThen_yields {sign : String} : Yields whole (nextWordThen sign) fun _ => True := by
  intro tokens value rest within read
  unfold nextWordThen at read
  split at read <;>
  · cases read
    exact ⟨within, trivial⟩

theorem nextBrackets_yields : Yields whole nextBrackets fun _ => True := by
  intro tokens value rest within read
  unfold nextBrackets at read
  split at read <;>
  · cases read
    exact ⟨within, trivial⟩

section

variable (yields : grammar.Yields)

include yields

theorem elementValue_yields (limit : Nat) :
    Yields whole (elementValue grammar limit) (AreFrom whole) := by
  induction limit with
  | zero => exact .fail
  | succ limit ih =>
      have value : Yields whole (do
          let value ← elementValue grammar limit
          if !(← nextSymbol "\x7d") then
            let _ ← symbol ","
          return value) (AreFrom whole) := by
        refine ih.bind fun value origin => nextSymbol_yields.andThen fun _ => .ite ?_ (.pure origin)
        exact symbol_yields.andThen fun _ => .pure origin
      rw [elementValue]
      refine nextSymbol_yields.andThen fun _ => .ite ?_ ?_
      · exact (yields.marker whole).bind fun found origin => .pure origin
      · refine optionalSymbol_yields.andThen fun _ => .ite ?_ ?_
        · refine optionalSymbol_yields.andThen fun _ => .ite ?_ ?_
          · exact symbol_yields.andThen fun _ => .pure areFrom_nil
          · refine (untilNext_yields value grammar.limit).bind fun values origins => ?_
            exact symbol_yields.andThen fun _ => .pure (areFrom_flatten origins)
        · exact (yields.expression whole 0 true).bind fun value origin => .pure (by simp [origin])

theorem element_yields : Yields whole (element grammar) (AreFrom whole) := by
  unfold element
  exact word_yields.andThen fun _ => symbol_yields.andThen fun _ => elementValue_yields yields _

theorem annotationArguments_yields : Yields whole (annotationArguments grammar) (AreFrom whole) := by
  unfold annotationArguments
  refine symbol_yields.andThen fun _ => nextWordThen_yields.andThen fun _ =>
    nextSymbol_yields.andThen fun _ => .ite ?_ ?_
  · exact (listUntil_yields (element_yields yields) _).bind fun values origins =>
      .pure (areFrom_flatten origins)
  · exact (elementValue_yields yields _).bind fun value origin =>
      symbol_yields.andThen fun _ => .pure origin

theorem annotationRule_yields :
    Yields whole (annotationRule grammar) fun found => AreFrom whole found.stretch.code := by
  unfold annotationRule
  refine ahead_yields.andThen fun start => symbol_yields.andThen fun _ =>
    (dottedName_yields _).andThen fun name => nextSymbol_yields.andThen fun _ => .ite ?_ ?_
  · exact (annotationArguments_yields yields).bind fun arguments origins =>
      ahead_yields.andThen fun _ => .pure origins
  · exact ahead_yields.andThen fun _ => .pure areFrom_nil

theorem annotations_yields : Yields whole (annotations grammar) fun found =>
    ∀ marker ∈ found, AreFrom whole marker.stretch.code :=
  whileNext_yields (yields.marker whole) _

theorem annotationStretch_yields :
    Yields whole (annotationStretch grammar) fun stretch => AreFrom whole stretch.code := by
  unfold annotationStretch
  exact (annotations_yields yields).bind fun found origins => .pure (by simpa using origins)

theorem modifier_yields : Yields whole (modifier grammar) fun found =>
    ∀ marker, found = .inl marker → AreFrom whole marker.stretch.code := by
  unfold modifier
  refine nextSymbol_yields.andThen fun _ => .ite ?_ ?_
  · refine (yields.marker whole).bind fun found origins => .pure ?_
    rintro _ ⟨⟩
    exact origins
  · exact token_yields.andThen fun _ => .pure (by simp)

theorem modifiers_yields :
    Yields whole (modifiers grammar) fun before => AreFrom whole before.code := by
  unfold modifiers
  refine (whileNext_yields (modifier_yields yields) _).bind fun found origins => .pure ?_
  refine areFrom_flatMap fun marker member => ?_
  obtain ⟨item, listed, left⟩ := List.mem_filterMap.mp member
  exact origins item listed marker (Sum.getLeft?_eq_some_iff.mp left)

theorem typeArgument_yields :
    Yields whole (typeArgument grammar) fun stretch => AreFrom whole stretch.code := by
  unfold typeArgument
  refine (annotationStretch_yields yields).bind fun before origins =>
    nextSymbol_yields.andThen fun _ => .ite ?_ ?_
  · refine symbol_yields.andThen fun mark => nextWord_yields.andThen fun _ =>
      nextWord_yields.andThen fun _ => .ite ?_ (.pure (by simpa using origins))
    refine word_yields.andThen fun bound => (yields.type whole).bind fun type inside => .pure ?_
    simpa using ⟨origins, inside⟩
  · refine (yields.type whole).bind fun type inside => .pure ?_
    simpa using ⟨origins, inside⟩

theorem moreTypeArguments_yields :
    Yields whole (moreTypeArguments grammar) fun stretch => AreFrom whole stretch.code := by
  have one : Yields whole (do
      let comma ← symbol ","
      return Stretch.concat [.single comma, ← typeArgument grammar])
      fun stretch => AreFrom whole stretch.code := by
    refine symbol_yields.andThen fun comma => (typeArgument_yields yields).bind fun type inside => ?_
    exact .pure (by simpa using inside)
  unfold moreTypeArguments
  exact (whileNext_yields one _).bind fun found origins => .pure (areFrom_flatMap origins)

theorem typeArguments_yields :
    Yields whole (typeArguments grammar) fun stretch => AreFrom whole stretch.code := by
  unfold typeArguments
  refine symbol_yields.andThen fun opening => nextSymbol_yields.andThen fun _ => .ite ?_ ?_
  · exact symbol_yields.andThen fun _ => .pure (by simp)
  · refine (typeArgument_yields yields).bind fun first inFirst =>
      (moreTypeArguments_yields yields).bind fun rest inRest => symbol_yields.andThen fun _ => .pure ?_
    simpa using ⟨inFirst, inRest⟩

theorem optionalTypeArguments_yields :
    Yields whole (optionalTypeArguments grammar) fun stretch => AreFrom whole stretch.code := by
  unfold optionalTypeArguments
  exact nextSymbol_yields.andThen fun _ => .ite (typeArguments_yields yields) (.pure areFrom_nil)

theorem typeTail_yields (limit : Nat) :
    Yields whole (typeTail grammar limit) fun stretch => AreFrom whole stretch.code := by
  induction limit with
  | zero => exact .pure areFrom_nil
  | succ limit ih =>
      have segment : Yields whole (do
          let dot ← symbol "."
          let before ← annotationStretch grammar
          let name ← word
          let arguments ← optionalTypeArguments grammar
          return Stretch.concat
            [.single dot, before, .single name, arguments, ← typeTail grammar limit])
          fun stretch => AreFrom whole stretch.code := by
        refine symbol_yields.andThen fun dot => (annotationStretch_yields yields).bind fun before inBefore =>
          word_yields.andThen fun name => (optionalTypeArguments_yields yields).bind
            fun arguments inArguments => ih.bind fun rest inRest => .pure ?_
        simpa using ⟨inBefore, inArguments, inRest⟩
      intro tokens value rest within read
      rw [typeTail] at read
      beta_reduce at read
      split at read
      · split_ifs at read
        · exact segment within read
        · cases read
          exact ⟨within, areFrom_nil⟩
      · cases read
        exact ⟨within, areFrom_nil⟩

theorem simpleType_yields :
    Yields whole (simpleType grammar) fun stretch => AreFrom whole stretch.code := by
  unfold simpleType
  refine word_yields.andThen fun name => .ite (.pure areFrom_nil) ?_
  refine (optionalTypeArguments_yields yields).bind fun arguments inArguments =>
    (typeTail_yields yields _).bind fun rest inRest => .pure ?_
  simpa using ⟨inArguments, inRest⟩

theorem dimension_yields :
    Yields whole (dimension grammar) fun stretch => AreFrom whole stretch.code := by
  unfold dimension
  refine (annotationStretch_yields yields).bind fun before origins =>
    symbol_yields.andThen fun opening => symbol_yields.andThen fun closing => .pure ?_
  simpa using origins

theorem dimensions_yields (limit : Nat) :
    Yields whole (dimensions grammar limit) fun stretch => AreFrom whole stretch.code := by
  induction limit with
  | zero => exact .pure areFrom_nil
  | succ limit ih =>
      have more : Yields whole
          (do return Stretch.concat [← dimension grammar, ← dimensions grammar limit])
          fun stretch => AreFrom whole stretch.code := by
        refine (dimension_yields yields).bind fun first inFirst => ih.bind fun rest inRest => .pure ?_
        simpa using ⟨inFirst, inRest⟩
      rw [dimensions]
      refine nextBrackets_yields.andThen fun _ => .ite more ?_
      exact nextSymbol_yields.andThen fun _ => .ite (more.orElse (.pure areFrom_nil)) (.pure areFrom_nil)

theorem unannotatedType_yields :
    Yields whole (unannotatedType grammar) fun stretch => AreFrom whole stretch.code := by
  unfold unannotatedType
  refine (simpleType_yields yields).bind fun type inType =>
    (dimensions_yields yields _).bind fun after inAfter => .pure ?_
  simpa using ⟨inType, inAfter⟩

theorem typeRule_yields :
    Yields whole (typeRule grammar) fun stretch => AreFrom whole stretch.code := by
  unfold typeRule
  refine (annotationStretch_yields yields).bind fun before inBefore =>
    (unannotatedType_yields yields).bind fun type inType => .pure ?_
  simpa using ⟨inBefore, inType⟩

theorem typesSeparated_yields {sign : String} : Yields whole (typesSeparated sign grammar) fun types =>
    ∀ type ∈ types, AreFrom whole type.code :=
  separated_yields (yields.type whole) _

theorem typeParameter_yields : Yields whole (typeParameter grammar) (AreFrom whole) := by
  unfold typeParameter
  refine (annotationStretch_yields yields).bind fun before inBefore => word_yields.andThen fun _ =>
    optionalWord_yields.andThen fun _ => .ite ?_ (.pure inBefore)
  refine (typesSeparated_yields yields).bind fun bounds inBounds => .pure ?_
  simpa using ⟨inBefore, inBounds⟩

theorem optionalTypeParameters_yields :
    Yields whole (optionalTypeParameters grammar) (AreFrom whole) := by
  unfold optionalTypeParameters
  refine optionalSymbol_yields.andThen fun _ => .ite ?_ (.pure areFrom_nil)
  exact (separated_yields (typeParameter_yields yields) _).bind fun parameters origins =>
    symbol_yields.andThen fun _ => .pure (areFrom_flatten origins)

theorem variableName_yields :
    Yields whole (variableName grammar) fun found => AreFrom whole found.2 := by
  unfold variableName
  exact word_yields.andThen fun name => (dimensions_yields yields _).bind fun after origins =>
    .pure origins

end

end Parser

end CallContext.Java
