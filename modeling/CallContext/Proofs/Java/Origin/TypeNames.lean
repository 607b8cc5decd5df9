import CallContext.Proofs.Java.Origin.File

namespace CallContext.Java

namespace Member

mutual

def typeNames : Member → List String
  | .type heading members => heading.name.text :: typeNamesOf members
  | .fields .. | .method _ | .other _ => []

def typeNamesOf : List Member → List String
  | [] => []
  | first :: rest => first.typeNames ++ typeNamesOf rest

end

theorem typeNamesOf_eq_flatMap (members : List Member) : typeNamesOf members = members.flatMap typeNames := by
  induction members with
  | nil => rfl
  | cons first rest ih => rw [typeNamesOf, ih, List.flatMap_cons]

theorem typeNamesOf_append (members others : List Member) :
    typeNamesOf (members ++ others) = typeNamesOf members ++ typeNamesOf others := by
  simp only [typeNamesOf_eq_flatMap, List.flatMap_append]

theorem typeNamesOf_flatten (found : List (List Member)) :
    typeNamesOf found.flatten = found.flatMap typeNamesOf := by
  induction found with
  | nil => rfl
  | cons first rest ih => rw [List.flatten_cons, typeNamesOf_append, ih, List.flatMap_cons]

end Member

def Item.typeNames : Item → List String
  | .member declaration => declaration.typeNames
  | .package _ | .imports _ | .code _ => []

namespace Parser

variable {α β : Type} {before : List String} {parser : Parser α} {names : α → List String}

/-- The names of what a parser reads, and then the words that it leaves, stand in the same order among some
names from before and the words that it begins with. -/
def Names (before : List String) (parser : Parser α) (names : α → List String) : Prop :=
  ∀ ⦃tokens value rest⦄, parser tokens = .success value rest →
    (names value ++ rest.map (·.text)).Sublist (before ++ tokens.map (·.text))

namespace Names

protected theorem pure {value : α} (known : (names value).Sublist before) :
    Names before (pure value) names := by
  intro tokens found rest read
  cases read
  exact known.append_right _

protected theorem fail : Names before (Parser.fail : Parser α) names := by
  intro tokens found rest read
  cases read

protected theorem bind {next : α → Parser β} {others : β → List String} (first : Names before parser names)
    (onward : ∀ value, Names (names value) (next value) others) :
    Names before (parser >>= next) others := by
  intro tokens value rest read
  obtain ⟨middle, left, begun, continued⟩ := bind_eq_success read
  exact (onward middle continued).trans (first begun)

protected theorem ite {condition : Prop} [Decidable condition] {yes no : Parser α}
    (positive : Names before yes names) (negative : Names before no names) :
    Names before (if condition then yes else no) names := by
  split
  · exact positive
  · exact negative

protected theorem orElse {first second : Parser α} (one : Names before first names)
    (other : Names before second names) : Names before (orElse first second) names := by
  intro tokens value rest read
  rcases orElse_eq_success read with begun | again
  · exact one begun
  · exact other again

theorem after (reads : Names [] parser names) :
    Names before parser fun value => before ++ names value := by
  intro tokens value rest read
  rw [List.append_assoc]
  exact (reads read).append_left before

variable {post : List Token → α → Prop}

theorem of_yields (yields : ∀ whole, Yields whole parser (post whole)) :
    Names before parser fun _ => before := by
  intro tokens value rest read
  exact ((yields tokens List.suffix_rfl read).1.sublist.map _).append_left before

theorem skip {next : α → Parser β} {others : β → List String}
    (yields : ∀ whole, Yields whole parser (post whole))
    (onward : ∀ value, Names before (next value) others) : Names before (parser >>= next) others :=
  (of_yields yields).bind onward

end Names

theorem untilNext_names {condition : Token → Bool} (one : Names [] parser names) (limit : Nat) :
    Names [] (untilNext condition parser limit) fun found => found.flatMap names := by
  induction limit with
  | zero => exact .fail
  | succ limit ih =>
      rw [untilNext]
      refine .skip (fun _ => nextIs_yields) fun _ => .ite (.pure (.refl _)) ?_
      exact one.bind fun first => ih.after.bind fun rest => .pure (by simp)

theorem identifier_names : Names before identifier fun name => before ++ [name.text] := by
  intro tokens value rest read
  cases tokens with
  | nil => cases read
  | cons first others =>
      rw [identifier] at read
      split_ifs at read
      cases read
      simp

end Parser

def Grammar.Names (grammar : Grammar) : Prop :=
  Parser.Names [] grammar.classBody Member.typeNamesOf

namespace Parser

variable {grammar : Grammar} (yields : grammar.Yields) (ordered : grammar.Names)

/-! ## Members -/

section

variable {one : Parser Member} (single : Names [] one Member.typeNames)

include single in
theorem membersUntilBrace_names : Names [] (membersUntilBrace grammar one) Member.typeNamesOf := by
  have each : Names [] (do
      if ← optionalSymbol ";" then
        return []
      return [← one]) Member.typeNamesOf := by
    refine .skip (fun _ => optionalSymbol_yields) fun _ => .ite (.pure (.refl _)) ?_
    exact single.bind fun member => .pure (by simp [Member.typeNamesOf])
  unfold membersUntilBrace
  refine (untilNext_names each _).bind fun found => .skip (fun _ => symbol_yields) fun _ => .pure ?_
  rw [Member.typeNamesOf_flatten]

include yields

theorem enumConstant_names : Names [] (enumConstant grammar) Member.typeNames := by
  have rest {before values : List Code} : Names [] (do
      if ← nextSymbol "\x7b" then
        return .other (before ++ values ++ Member.codes (← grammar.classBody))
      return Member.other (before ++ values)) Member.typeNames := by
    refine .skip (fun _ => nextSymbol_yields) fun _ => .ite ?_ (.pure (.refl _))
    exact .skip yields.classBody fun members => .pure (.refl _)
  unfold enumConstant
  refine .skip (fun _ => modifiers_yields yields) fun before => .skip (fun _ => word_yields) fun _ =>
    .skip (fun _ => nextSymbol_yields) fun _ => .ite ?_ rest
  exact .skip (fun _ => argumentList_yields yields) fun values => rest

theorem enumConstants_names : Names [] (enumConstants grammar) Member.typeNamesOf := by
  have each : Names [] (do
      let constant ← enumConstant grammar
      if !(← nextIs fun next => next.isSymbol ";" || next.isSymbol "\x7d") then
        let _ ← symbol ","
      return constant) Member.typeNames := by
    refine (enumConstant_names yields).bind fun constant => .skip (fun _ => nextIs_yields) fun _ =>
      .ite ?_ (.pure (.refl _))
    exact .skip (fun _ => symbol_yields) fun _ => .pure (.refl _)
  unfold enumConstants
  refine .skip (fun _ => optionalSymbol_yields) fun _ => .ite (.pure (.refl _)) ?_
  rw [funext Member.typeNamesOf_eq_flatMap]
  exact untilNext_names each _

include single in
theorem enumBody_names : Names [] (enumBody grammar one) Member.typeNamesOf := by
  unfold enumBody
  refine .skip (fun _ => symbol_yields) fun _ => (enumConstants_names yields).bind fun constants =>
    .skip (fun _ => optionalSymbol_yields) fun _ => .ite ?_ ?_
  · exact (membersUntilBrace_names single).after.bind fun members => .pure (by
      rw [Member.typeNamesOf_append])
  · exact .skip (fun _ => symbol_yields) fun _ => .pure (.refl _)

variable (before : Modifiers)

include ordered in
theorem classTail_names : Names [] (classTail grammar before) Member.typeNames := by
  have rest {name : Identifier} {parameters : List Code} {superclass : List Stretch} :
      Names [name.text] (do
        let interfaces ← optionalTypes grammar "implements"
        let permitted ← optionalTypes grammar "permits"
        let members ← grammar.classBody
        return .type ⟨.classKind, name, before.names, (superclass ++ interfaces).map (·.text), [],
          before.code ++ parameters ++ (Stretch.concat (superclass ++ interfaces ++ permitted)).code⟩
          members) Member.typeNames :=
    .skip (fun _ => optionalTypes_yields yields) fun interfaces =>
      .skip (fun _ => optionalTypes_yields yields) fun permitted =>
      ordered.after.bind fun members => .pure (.refl _)
  unfold classTail
  refine identifier_names.bind fun name => .skip (fun _ => optionalTypeParameters_yields yields)
    fun parameters => .skip (fun _ => optionalWord_yields) fun _ => .ite ?_ rest
  exact .skip yields.type fun superclass => rest

include single in
theorem interfaceTail_names : Names [] (interfaceTail grammar before one) Member.typeNames := by
  unfold interfaceTail
  exact identifier_names.bind fun name => .skip (fun _ => optionalTypeParameters_yields yields)
    fun parameters => .skip (fun _ => optionalTypes_yields yields) fun extended =>
    .skip (fun _ => optionalTypes_yields yields) fun permitted => .skip (fun _ => symbol_yields) fun _ =>
    (membersUntilBrace_names single).after.bind fun members => .pure (.refl _)

include single in
theorem enumTail_names : Names [] (enumTail grammar before one) Member.typeNames := by
  unfold enumTail
  exact identifier_names.bind fun name => .skip (fun _ => optionalTypes_yields yields) fun interfaces =>
    (enumBody_names yields single).after.bind fun members => .pure (.refl _)

include ordered in
theorem recordTail_names : Names [] (recordTail grammar before) Member.typeNames := by
  unfold recordTail
  exact identifier_names.bind fun name => .skip (fun _ => optionalTypeParameters_yields yields)
    fun typeParameters => .skip (fun _ => formalParameters_yields yields) fun (components, inside) =>
    .skip (fun _ => optionalTypes_yields yields) fun interfaces =>
    ordered.after.bind fun members => .pure (.refl _)

end

section

include yields

theorem methodTail_names {start : Token} {before : Modifiers} {typeParameters : List Code}
    {type : Stretch} {name : String} :
    Names [] (methodTail grammar start before typeParameters type name) fun _ => [] := by
  unfold methodTail
  refine .skip (fun _ => formalParameters_yields yields) fun (parameters, inside) =>
    .skip (fun _ => dimensions_yields yields _) fun after =>
    .skip (fun _ => optionalThrows_yields yields) fun thrown =>
    .skip (fun _ => nextSymbol_yields) fun _ => .ite ?_ ?_
  · exact .skip yields.statement fun body => .pure (.refl _)
  · exact .skip (fun _ => symbol_yields) fun _ => .pure (.refl _)

theorem constructorTail_names {heading : List Code} :
    Names [] (constructorTail grammar heading) Member.typeNames := by
  unfold constructorTail
  exact .skip (fun _ => formalParameters_yields yields) fun (_, inside) =>
    .skip (fun _ => optionalThrows_yields yields) fun thrown =>
    .skip (fun _ => constructorBody_yields yields) fun body => .pure (.refl _)

theorem typedMember_names {setting : Setting} {start : Token} {before : Modifiers}
    {typeParameters : List Code} :
    Names [] (typedMember grammar setting start before typeParameters) Member.typeNames := by
  unfold typedMember
  refine .skip (fun _ => unannotatedType_yields yields) fun type =>
    .skip (fun _ => nextWordThen_yields) fun _ => .ite ?_ ?_
  · refine .skip (fun _ => word_yields) fun name => .ite ?_ ?_
    · exact .skip (fun _ => elementTail_yields yields) fun value => .pure (.refl _)
    · exact (methodTail_names yields).bind fun declaration => .pure (.refl _)
  · exact .skip (fun _ => declarators_yields yields) fun found => .pure (.refl _)

include ordered

theorem memberAfter_names {inner : Setting → Parser Member}
    (each : ∀ setting, Names [] (inner setting) Member.typeNames) (setting : Setting) (start : Token)
    (before : Modifiers) : Names [] (memberAfter grammar inner setting start before) Member.typeNames := by
  unfold memberAfter
  refine .skip (fun _ => firstToken_yields) fun next =>
    .ite ?_ (.ite ?_ (.ite ?_ (.ite ?_ (.ite ?_ (.ite ?_ ?_)))))
  · exact .skip (fun _ => word_yields) fun _ => classTail_names yields ordered before
  · exact .skip (fun _ => word_yields) fun _ => interfaceTail_names yields (each _) before
  · exact .skip (fun _ => word_yields) fun _ => enumTail_names yields (each _) before
  · exact .skip (fun _ => skip_yields) fun _ => .skip (fun _ => word_yields) fun _ =>
      .skip (fun _ => symbol_yields) fun _ => (membersUntilBrace_names (each _)).bind fun members =>
      .pure (List.nil_sublist _)
  · exact .skip (fun _ => word_yields) fun _ => recordTail_names yields ordered before
  · exact .skip (fun _ => block_yields yields) fun body => .pure (.refl _)
  refine .skip (fun _ => nextWordThen_yields) fun _ => .ite ?_
    (.skip (fun _ => nextWordThen_yields) fun _ => .ite ?_ (.ite ?_ (typedMember_names yields)))
  · exact .skip (fun _ => word_yields) fun _ => constructorTail_names yields
  · exact .skip (fun _ => word_yields) fun _ => .skip (fun _ => block_yields yields) fun body =>
      .pure (.refl _)
  · refine .skip (fun _ => optionalTypeParameters_yields yields) fun parameters =>
      .skip (fun _ => annotationStretch_yields yields) fun after =>
      .skip (fun _ => nextWordThen_yields) fun _ => .ite ?_ ?_
    · exact .skip (fun _ => word_yields) fun _ => constructorTail_names yields
    · exact .skip (fun _ => unannotatedType_yields yields) fun type =>
        .skip (fun _ => word_yields) fun name => (methodTail_names yields).bind fun declaration =>
        .pure (.refl _)

theorem memberRule_names (limit : Nat) (setting : Setting) :
    Names [] (memberRule grammar limit setting) Member.typeNames := by
  induction limit generalizing setting with
  | zero => exact .fail
  | succ limit ih =>
      rw [memberRule]
      exact .skip (fun _ => firstToken_yields) fun start => .skip (fun _ => modifiers_yields yields)
        fun before => memberAfter_names yields ordered ih setting start before

theorem classBodyRule_names : Names [] (classBodyRule grammar) Member.typeNamesOf := by
  unfold classBodyRule
  exact .skip (fun _ => symbol_yields) fun _ =>
    membersUntilBrace_names (memberRule_names yields ordered _ _)

/-! ## Items -/

omit ordered in
theorem localsTail_names {before : Modifiers} :
    Names [] (do return Item.code (← localsTail grammar before)) Item.typeNames := by
  have read : Names [] (localsTail grammar before) fun _ => [] := by
    unfold localsTail
    exact .skip (fun _ => unannotatedType_yields yields) fun type =>
      .skip (fun _ => declarators_yields yields) fun found => .pure (.refl _)
  exact read.bind fun found => .pure (.refl _)

omit yields ordered in
theorem code_names {rule : Parser Code} {post : List Token → Code → Prop}
    (origin : ∀ whole, Yields whole rule (post whole)) :
    Names [] (do return Item.code (← rule)) Item.typeNames :=
  .skip origin fun _ => .pure (.refl _)

theorem modifiedItem_names (before : Modifiers) :
    Names [] (modifiedItem grammar before) Item.typeNames := by
  unfold modifiedItem
  refine .skip (fun _ => ahead_yields) fun tokens => .skip (fun _ => firstToken_yields) fun next =>
    .ite ?_ (.ite ?_ (.ite ?_ (localsTail_names yields)))
  · exact (memberAfter_names yields ordered (memberRule_names yields ordered _) _ _ _).bind
      fun declaration => .pure (.refl _)
  · exact .skip (fun _ => keyword_yields) fun _ => .skip (fun _ => dottedName_yields _) fun name =>
      .skip (fun _ => symbol_yields) fun _ => .pure (.refl _)
  · exact .skip (fun _ => optionalWord_yields) fun _ => .skip (fun _ => moduleTail_yields) fun _ =>
      .pure (.refl _)

theorem itemRule_names : Names [] (itemRule grammar) Item.typeNames := by
  unfold itemRule
  refine .skip (fun _ => ahead_yields) fun tokens => .skip (fun _ => firstToken_yields) fun first => ?_
  refine .ite (code_names fun _ => block_yields yields) ?_
  refine .skip (fun _ => optionalSymbol_yields) fun _ => .ite (.pure (.refl _)) ?_
  split
  · rename_i rule isRule
    rw [Option.ite_none_right_eq_some] at isRule
    exact code_names fun _ => introduced_yields yields isRule.2
  have modified : Names [] (do modifiedItem grammar (← modifiers grammar)) Item.typeNames :=
    .skip (fun _ => modifiers_yields yields) (modifiedItem_names yields ordered)
  have ending (whole : List Token) :
      Yields whole (expressionStatement grammar) (Code.From whole) := expressionStatement_yields yields
  refine .ite ?_ (.ite ?_ (.ite ?_ (.ite ?_ (.ite modified
    (code_names fun _ => plainStatement_yields yields)))))
  · exact .skip (fun _ => skip_yields) fun _ => .skip (fun _ => condition_yields yields) fun lock =>
      .skip (fun _ => block_yields yields) fun body => .pure (.refl _)
  · exact code_names fun whole => .orElse (skip_yields.andThen fun _ => ending whole) (ending whole)
  · unfold importRule
    exact .skip (fun _ => keyword_yields) fun _ => .skip (fun _ => optionalWord_yields) fun _ =>
      .skip (fun _ => dottedName_yields _) fun _ => .skip (fun _ => optionalSymbol_yields) fun _ => .ite
        (.skip (fun _ => symbol_yields) fun _ => .skip (fun _ => symbol_yields) fun _ =>
          .pure (.refl _))
        (.skip (fun _ => symbol_yields) fun _ => .pure (.refl _))
  · exact modified.orElse (code_names ending)

omit ordered in
theorem looseMethod_names : Names [] (looseMethod grammar) Item.typeNames := by
  unfold looseMethod
  exact .skip (fun _ => firstToken_yields) fun start => .skip (fun _ => modifiers_yields yields)
    fun before => .skip (fun _ => optionalTypeParameters_yields yields) fun parameters =>
    .skip (fun _ => annotationStretch_yields yields) fun after =>
    .skip (fun _ => unannotatedType_yields yields) fun type => .skip (fun _ => word_yields) fun name =>
    (methodTail_names yields).bind fun declaration => .pure (.refl _)

theorem fileItem_names : Names [] (fileItem grammar) Item.typeNames := by
  unfold fileItem
  exact .skip (fun _ => firstToken_yields) fun first => .ite (itemRule_names yields ordered)
    ((itemRule_names yields ordered).orElse (looseMethod_names yields))

theorem fileItems_names (limit : Nat) :
    Names [] (fileItems grammar limit) fun items => items.flatMap Item.typeNames := by
  induction limit with
  | zero => exact .fail
  | succ limit ih =>
      intro tokens value rest read
      cases tokens with
      | nil =>
          cases read
          simp
      | cons first others =>
          have more : Names [] (do return (← fileItem grammar) :: (← fileItems grammar limit))
              fun items => items.flatMap Item.typeNames :=
            (fileItem_names yields ordered).bind fun item => ih.after.bind fun items =>
              .pure (by rw [List.flatMap_cons])
          exact more read

end

theorem ofDepth_names (limit depth : Nat) : (Grammar.ofDepth limit depth).Names := by
  induction depth with
  | zero => exact .fail
  | succ depth ih => exact classBodyRule_names (ofDepth_yields limit depth) ih

end Parser

/-! ## Files -/

mutual

theorem Member.map_name_types (qualifier : String) (outer : Option String) (member : Member) :
    (member.types qualifier outer).map (·.name) = member.typeNames := by
  cases member with
  | type heading members =>
      rw [types, typeNames, List.map_cons, Member.map_name_typesOf]
      rfl
  | fields | method | other => rfl

theorem Member.map_name_typesOf (qualifier : String) (outer : Option String) (members : List Member) :
    (Member.typesOf qualifier outer members).map (·.name) = typeNamesOf members := by
  cases members with
  | nil => rfl
  | cons first rest =>
      rw [typesOf, typeNamesOf, List.map_append, Member.map_name_types, Member.map_name_typesOf]

end

theorem Item.map_name_types (qualifier : String) (items : List Item) :
    (Item.types qualifier items).map (·.name) = items.flatMap Item.typeNames := by
  induction items generalizing qualifier with
  | nil => rfl
  | cons item rest ih =>
      cases item with
      | package | imports | code => exact ih _
      | member declaration =>
          rw [types, List.map_append, List.flatMap_cons, Member.map_name_types, ih, typeNames]

theorem SourceFile.sublist_names {path content : String} {file : SourceFile}
    (parsed : SourceFile.parse path content = .ok file) :
    (file.types.map (·.name)).Sublist ((Lexer.tokens content.toList).map (·.text)) := by
  obtain ⟨items, read, rfl⟩ := SourceFile.parse_eq_ok_iff.mp parsed
  obtain ⟨rest, whole⟩ := parseSource_eq_ok read
  have ordered := Parser.fileItems_names (Parser.ofDepth_yields _ _) (Parser.ofDepth_names _ _) _ whole
  rw [ofItems, Item.map_name_types]
  exact (List.sublist_append_left _ _).trans ordered

end CallContext.Java
