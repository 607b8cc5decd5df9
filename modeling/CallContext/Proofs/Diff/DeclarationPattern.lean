import CallContext.Proofs.Diff.Declaration
import CallContext.Proofs.Text.Pattern
import Mathlib.Data.List.DropRight

/-!
Which name a line declares. The search for the pattern of a declaration comes down to a simple rule: of the
modifiers in a line, each a word of its own, the first counts that has a name before the first parenthesis
after it. Nothing depends on how much the repetitions of the pattern take, since all ways in which it matches
at one place find the same name.
-/

namespace CallContext.Diff

open Text

variable {c : Char} {name text after : List Char}

/-! ## Words and names -/

def isNameStart (c : Char) : Bool :=
  c.isAlpha || c == '_'

def isNamePart (c : Char) : Bool :=
  c.isAlphanum || c == '_'

theorem isAsciiIdentifier_iff :
    isAsciiIdentifier name ↔
      ∃ first rest, name = first :: rest ∧ isNameStart first ∧ ∀ c ∈ rest, isNamePart c := by
  cases name <;> simp [isAsciiIdentifier, isNameStart, isNamePart]

theorem lt_of_isAlphanum (letter : c.isAlphanum) : c.toNat < 0x80 := by
  change (decide (65 ≤ c.val ∧ c.val ≤ 90) || (decide (97 ≤ c.val) && decide (c.val ≤ 122)) ||
    (decide (48 ≤ c.val) && decide (c.val ≤ 57))) = true at letter
  simp only [Bool.or_eq_true, Bool.and_eq_true, decide_eq_true_eq, UInt32.le_iff_toNat_le] at letter
  change ((65 ≤ c.toNat ∧ c.toNat ≤ 90) ∨ (97 ≤ c.toNat ∧ c.toNat ≤ 122)) ∨
    (48 ≤ c.toNat ∧ c.toNat ≤ 57) at letter
  omega

theorem isWordPart_of_isNamePart (part : isNamePart c) : isWordPart c := by
  have ascii : c.toNat < 0x80 := by
    rcases Bool.or_eq_true _ _ ▸ part with letter | underscore
    · exact lt_of_isAlphanum letter
    · rw [beq_iff_eq.mp underscore]
      decide
  rw [isWordPart, if_pos ascii]
  exact part

theorem isWordPart_of_mem_identifier (identifier : isAsciiIdentifier name) (member : c ∈ name) :
    isWordPart c := by
  obtain ⟨first, rest, rfl, starts, parts⟩ := isAsciiIdentifier_iff.mp identifier
  rcases List.mem_cons.mp member with rfl | later
  · refine isWordPart_of_isNamePart ?_
    simp only [isNameStart, isNamePart, Char.isAlphanum, Bool.or_eq_true] at starts ⊢
    exact starts.imp_left .inl
  · exact isWordPart_of_isNamePart (parts c later)

theorem not_isParenthesis_of_isWordPart (part : isWordPart c) : isParenthesis c = false := by
  by_contra parenthesis
  simp only [isParenthesis, Bool.not_eq_false, Bool.or_eq_true, beq_iff_eq] at parenthesis
  rcases parenthesis with rfl | rfl
  · exact absurd part (by decide)
  · exact absurd part (by decide)

theorem not_isBlank_of_isWordPart (part : isWordPart c) : isBlank c = false := by
  by_contra blank
  rw [not_isWordPart_of_isBlank ((Bool.not_eq_false _).mp blank)] at part
  cases part

theorem isWordPart_of_mem_declarationWords {word : List Char} (member : word ∈ declarationWords) :
    word ≠ [] ∧ ∀ c ∈ word, isWordPart c := by
  have all : declarationWords.all fun word => word ≠ [] && word.all isWordPart := by decide +kernel
  simpa using List.all_eq_true.mp all word member

/-! ## The name before a parenthesis -/

/-- Whether the first parenthesis of a text opens and what stands before it ends, white space aside, with
a maximal run of word characters that is the given name. -/
def NamedBefore (text name : List Char) : Prop :=
  ∃ gap spaces rest, text = gap ++ (name ++ (spaces ++ '(' :: rest)) ∧
    (∀ c ∈ gap ++ (name ++ spaces), isParenthesis c = false) ∧ (∀ c ∈ spaces, isBlank c) ∧
    gap.getLast?.any isWordPart = false ∧ isAsciiIdentifier name

theorem any_getLast?_rdropWhile (p : Char → Bool) (text : List Char) :
    (text.rdropWhile p).getLast?.any p = false := by
  have stops := List.head?_dropWhile_not p text.reverse
  rw [List.rdropWhile, List.getLast?_reverse]
  cases first : (text.reverse.dropWhile p).head? with
  | none => rfl
  | some c =>
      rw [first] at stops
      exact stops

theorem lastWord_append {gap spaces : List Char} (identifier : isAsciiIdentifier name)
    (blank : ∀ c ∈ spaces, isBlank c) (maximal : gap.getLast?.any isWordPart = false) :
    lastWord (gap ++ (name ++ spaces)) = name := by
  have word : ∀ c ∈ name.reverse, isWordPart c := fun c member =>
    isWordPart_of_mem_identifier identifier (List.mem_reverse.mp member)
  have solid : (name.reverse ++ gap.reverse).dropWhile isBlank = name.reverse ++ gap.reverse := by
    obtain ⟨first, rest, spelled, -⟩ := isAsciiIdentifier_iff.mp identifier
    obtain ⟨last, others, reversed⟩ :=
      List.exists_cons_of_ne_nil (List.reverse_ne_nil_iff.mpr (spelled ▸ List.cons_ne_nil first rest))
    have letter := not_isBlank_of_isWordPart (word last (by simp [reversed]))
    rw [reversed, List.cons_append, List.dropWhile_cons_of_neg (by simp [letter])]
  have ends : gap.reverse.takeWhile isWordPart = [] := by
    rw [← List.head?_reverse] at maximal
    cases reversed : gap.reverse with
    | nil => rfl
    | cons last rest => simpa [reversed] using maximal
  rw [lastWord, trimEnd, List.reverse_append, List.reverse_append, List.append_assoc,
    List.dropWhile_append_of_pos fun c member => blank c (List.mem_reverse.mp member), solid,
    List.reverse_reverse, List.takeWhile_append_of_pos word, ends, List.append_nil, List.reverse_reverse]

theorem nameBeforeParenthesis_eq_some_iff {name : String} :
    nameBeforeParenthesis text = some name ↔ NamedBefore text name.toList := by
  constructor
  · intro found
    unfold nameBeforeParenthesis at found
    split at found
    · next rest opens =>
        dsimp only at found
        split_ifs at found with identifier
        obtain rfl := Option.some.inj found
        rw [String.toList_ofList]
        have split := List.takeWhile_append_dropWhile (p := (!isParenthesis ·)) (l := text)
        rw [opens] at split
        have plain : ∀ c ∈ text.takeWhile (!isParenthesis ·), isParenthesis c = false :=
          fun c member => by simpa using List.mem_takeWhile_imp member
        generalize text.takeWhile (!isParenthesis ·) = inside at split plain identifier ⊢
        have word : (trimEnd inside).rdropWhile isWordPart ++ lastWord inside = trimEnd inside :=
          List.rdropWhile_append_rtakeWhile
        have spaced : trimEnd inside ++ inside.rtakeWhile isBlank = inside :=
          List.rdropWhile_append_rtakeWhile
        have parts : (trimEnd inside).rdropWhile isWordPart ++
            (lastWord inside ++ inside.rtakeWhile isBlank) = inside := by
          rw [← List.append_assoc, word, spaced]
        refine ⟨(trimEnd inside).rdropWhile isWordPart, inside.rtakeWhile isBlank, rest, ?_, ?_,
          fun c => List.mem_rtakeWhile_imp, any_getLast?_rdropWhile _ _, identifier⟩
        · rw [← split]
          conv_lhs => rw [← parts]
          simp only [List.append_assoc]
        · rwa [parts]
    · cases found
  · rintro ⟨gap, spaces, rest, rfl, plain, blank, maximal, identifier⟩
    have passes : ∀ c ∈ gap ++ (name.toList ++ spaces), (!isParenthesis c) = true :=
      fun c member => by simp [plain c member]
    have grouped : gap ++ (name.toList ++ (spaces ++ '(' :: rest)) =
        (gap ++ (name.toList ++ spaces)) ++ '(' :: rest := by
      simp only [List.append_assoc]
    have stops : (!isParenthesis '(') = false := rfl
    unfold nameBeforeParenthesis
    rw [grouped, List.dropWhile_append_of_pos passes, List.takeWhile_append_of_pos passes,
      List.dropWhile_cons_of_neg (by simp [stops]), List.takeWhile_cons_of_neg (by simp [stops]),
      List.append_nil]
    simp only [lastWord_append identifier blank maximal, identifier, if_true, String.ofList_toList]

/-! ## Modifiers -/

def IsModifierAt (line : List Char) (place : Nat) (after : List Char) : Prop :=
  ∃ word ∈ declarationWords, line.drop place = word ++ after ∧
    (line.take place).getLast?.any isWordPart = false ∧ after.head?.any isWordPart = false

def DeclaresAt (line : List Char) (place : Nat) (name : List Char) : Prop :=
  ∃ after, IsModifierAt line place after ∧ NamedBefore after name

theorem afterWord_eq_some_iff {word : List Char} :
    afterWord word text = some after ↔ text = word ++ after ∧ after.head?.any isWordPart = false := by
  unfold afterWord
  constructor
  · intro found
    split_ifs at found with begins
    obtain ⟨starts, ends⟩ := Bool.and_eq_true_iff.mp begins
    obtain ⟨rest, rfl⟩ := List.isPrefixOf_iff_prefix.mp starts
    rw [List.drop_left] at found ends
    obtain rfl := Option.some.inj found
    exact ⟨rfl, by simpa using ends⟩
  · rintro ⟨rfl, ends⟩
    have starts : word.isPrefixOf (word ++ after) :=
      List.isPrefixOf_iff_prefix.mpr (List.prefix_append word after)
    rw [List.drop_left, ends, starts]
    rfl

theorem takeWhile_of_afterWord {word : List Char} (member : word ∈ declarationWords)
    (found : afterWord word text = some after) : text.takeWhile isWordPart = word := by
  obtain ⟨rfl, ends⟩ := afterWord_eq_some_iff.mp found
  have stops : after.takeWhile isWordPart = [] := by
    cases after with
    | nil => rfl
    | cons c rest => simpa using ends
  rw [List.takeWhile_append_of_pos (isWordPart_of_mem_declarationWords member).2, stops, List.append_nil]

theorem findSome?_afterWord_eq_some_iff :
    (declarationWords.findSome? fun word => afterWord word text) = some after ↔
      ∃ word ∈ declarationWords, afterWord word text = some after := by
  constructor
  · exact List.exists_of_findSome?_eq_some
  · rintro ⟨word, member, found⟩
    have some : (declarationWords.findSome? fun word => afterWord word text).isSome :=
      List.findSome?_isSome_iff.mpr ⟨word, member, by rw [found]; rfl⟩
    obtain ⟨other, first⟩ := Option.isSome_iff_exists.mp some
    obtain ⟨word', member', found'⟩ := List.exists_of_findSome?_eq_some first
    rw [← takeWhile_of_afterWord member' found', takeWhile_of_afterWord member found, found] at found'
    rw [first, found']

theorem declaredAtStart_eq_some_iff {name : String} :
    declaredAtStart text = some name ↔
      ∃ after, (∃ word ∈ declarationWords, text = word ++ after ∧ after.head?.any isWordPart = false) ∧
        NamedBefore after name.toList := by
  simp only [declaredAtStart, Option.bind_eq_some_iff, findSome?_afterWord_eq_some_iff,
    afterWord_eq_some_iff, nameBeforeParenthesis_eq_some_iff]

variable {before : List Char}

theorem declaredHere_eq_some_iff {name : String} :
    (if before.getLast?.any isWordPart then none else declaredAtStart text) = some name ↔
      DeclaresAt (before ++ text) before.length name.toList := by
  simp only [DeclaresAt, IsModifierAt, List.drop_left, List.take_left]
  cases before.getLast?.any isWordPart <;> simp [declaredAtStart_eq_some_iff]

theorem DeclaresAt.lt_length {line : List Char} {place : Nat} (declares : DeclaresAt line place name) :
    place < line.length := by
  obtain ⟨after, ⟨word, member, here, -⟩, -⟩ := declares
  by_contra beyond
  rw [List.drop_of_length_le (Nat.le_of_not_lt beyond)] at here
  exact (isWordPart_of_mem_declarationWords member).1 (List.append_eq_nil_iff.mp here.symm).1

theorem DeclaresAt.unique {line other : List Char} {place : Nat} (declares : DeclaresAt line place name)
    (declaresToo : DeclaresAt line place other) : name = other := by
  have here {found : List Char} (declares : DeclaresAt line place found) :
      (if (line.take place).getLast?.any isWordPart then none
        else declaredAtStart (line.drop place)) = some (String.ofList found) := by
    rw [declaredHere_eq_some_iff, List.take_append_drop, String.toList_ofList, List.length_take,
      Nat.min_eq_left declares.lt_length.le]
    exact declares
  exact String.ofList_injective (Option.some.inj ((here declares).symm.trans (here declaresToo)))

theorem declaredFrom_eq (before text : List Char) :
    match declaredFrom (before.getLast?.any isWordPart) text with
    | none => ∀ place name, before.length ≤ place → ¬ DeclaresAt (before ++ text) place name
    | some name => ∃ place, DeclaresAt (before ++ text) place name.toList ∧
        ∀ earlier other, before.length ≤ earlier → earlier < place →
          ¬ DeclaresAt (before ++ text) earlier other := by
  induction text generalizing before with
  | nil =>
      intro place name within declares
      have bound := declares.lt_length
      rw [List.append_nil] at bound
      omega
  | cons c rest ih =>
      rw [declaredFrom]
      cases here : (if before.getLast?.any isWordPart then none else declaredAtStart (c :: rest)) with
      | some name =>
          refine ⟨before.length, declaredHere_eq_some_iff.mp here, ?_⟩
          intro earlier other within later
          omega
      | none =>
          have nowhere (other : List Char) : ¬ DeclaresAt (before ++ c :: rest) before.length other := by
            intro declares
            rw [← String.toList_ofList (l := other), ← declaredHere_eq_some_iff, here] at declares
            cases declares
          have further := ih (before ++ [c])
          rw [List.getLast?_concat, List.append_assoc, List.singleton_append, List.length_append,
            List.length_singleton, Option.any_some] at further
          -- A place from here on is this place or one after the next character.
          cases found : declaredFrom (isWordPart c) rest with
          | none =>
              rw [found] at further
              intro place other within
              rcases Nat.eq_or_lt_of_le within with rfl | later
              · exact nowhere other
              · exact further place other later
          | some name =>
              rw [found] at further
              obtain ⟨place, declares, first⟩ := further
              refine ⟨place, declares, fun earlier other within => ?_⟩
              rcases Nat.eq_or_lt_of_le within with rfl | later
              · exact fun _ => nowhere other
              · exact first earlier other later

/-! ## The pattern -/

def identifierPattern : Pattern :=
  .andThen (.one isNameStart) (.many false isNamePart)

def openingPattern : Pattern :=
  .andThen (.many false isBlank) (.one (· == '('))

/-- The pattern `[^()]*?\b([A-Za-z_][A-Za-z0-9_]*)\s*\(` of what follows a modifier. -/
def namePattern : Pattern :=
  .andThen (.many true (!isParenthesis ·)) <| .andThen .edge <|
    .andThen (.group 2 identifierPattern) openingPattern

/-- The pattern of a declaration: `\b(public|protected|private|static|final|synchronized|abstract|default)\b`
and what follows a modifier. -/
def declarationPattern : Pattern :=
  .andThen .edge <| .andThen (.group 1 (.oneOf declarationWords)) <| .andThen .edge namePattern

variable {previous : Option Char} {way : Way}

theorem mem_ways_identifierPattern :
    way ∈ identifierPattern.ways previous text ↔
      ∃ name rest, text = name ++ rest ∧ isAsciiIdentifier name ∧ way = ⟨name, []⟩ := by
  simp only [identifierPattern, Pattern.mem_ways_andThen, Pattern.mem_ways_one, Pattern.mem_ways_many,
    isAsciiIdentifier_iff]
  constructor
  · rintro ⟨front, rest, rfl, ⟨c, tail, split, starts, rfl⟩, back, ⟨run, after, rfl, parts, rfl⟩, rfl⟩
    exact ⟨c :: run, after, rfl, ⟨c, run, rfl, starts, parts⟩, rfl⟩
  · rintro ⟨name, rest, rfl, ⟨c, run, rfl, starts, parts⟩, rfl⟩
    exact ⟨⟨[c], []⟩, run ++ rest, rfl, ⟨c, run ++ rest, rfl, starts, rfl⟩, ⟨run, []⟩,
      ⟨run, rest, rfl, parts, rfl⟩, rfl⟩

theorem mem_ways_openingPattern :
    way ∈ openingPattern.ways previous text ↔
      ∃ spaces rest, text = spaces ++ '(' :: rest ∧ (∀ c ∈ spaces, isBlank c) ∧
        way = ⟨spaces ++ ['('], []⟩ := by
  simp only [openingPattern, Pattern.mem_ways_andThen, Pattern.mem_ways_one, Pattern.mem_ways_many]
  constructor
  · rintro ⟨front, after, rfl, ⟨spaces, more, -, blank, rfl⟩, back, ⟨c, rest, rfl, opens, rfl⟩, rfl⟩
    obtain rfl := beq_iff_eq.mp opens
    exact ⟨spaces, rest, rfl, blank, rfl⟩
  · rintro ⟨spaces, rest, rfl, blank, rfl⟩
    exact ⟨⟨spaces, []⟩, '(' :: rest, rfl, ⟨spaces, '(' :: rest, rfl, blank, rfl⟩, ⟨['('], []⟩,
      ⟨'(', rest, rfl, rfl, rfl⟩, rfl⟩

theorem mem_ways_namePattern :
    way ∈ namePattern.ways previous text ↔
      ∃ gap name spaces rest, text = gap ++ (name ++ (spaces ++ '(' :: rest)) ∧
        (∀ c ∈ gap, isParenthesis c = false) ∧
        isEdge (gap.getLast?.or previous) (name ++ (spaces ++ '(' :: rest)) ∧
        isAsciiIdentifier name ∧ (∀ c ∈ spaces, isBlank c) ∧
        way = ⟨gap ++ (name ++ (spaces ++ ['('])), [(2, name)]⟩ := by
  simp only [namePattern, Pattern.mem_ways_andThen, Pattern.mem_ways_many, Pattern.mem_ways_edge,
    Pattern.mem_ways_group, mem_ways_identifierPattern, mem_ways_openingPattern]
  constructor
  · rintro ⟨_, _, rfl, ⟨gap, _, -, plain, rfl⟩, _, ⟨_, _, rfl, ⟨edge, rfl⟩, _,
      ⟨_, _, rfl, ⟨_, ⟨name, _, -, identifier, rfl⟩, rfl⟩, _, ⟨spaces, rest, rfl, blank, rfl⟩, rfl⟩, rfl⟩,
      rfl⟩
    exact ⟨gap, name, spaces, rest, rfl, fun c member => by simpa using plain c member, edge, identifier,
      blank, rfl⟩
  · rintro ⟨gap, name, spaces, rest, rfl, plain, edge, identifier, blank, rfl⟩
    refine ⟨⟨gap, []⟩, _, rfl, ⟨gap, _, rfl, fun c member => by simp [plain c member], rfl⟩, _,
      ⟨⟨[], []⟩, _, rfl, ⟨edge, rfl⟩, _, ⟨⟨name, [(2, name)]⟩, _, rfl, ⟨⟨name, []⟩,
        ⟨name, _, rfl, identifier, rfl⟩, rfl⟩, _, ⟨spaces, rest, rfl, blank, rfl⟩, rfl⟩, rfl⟩, rfl⟩

theorem mem_ways_declarationPattern :
    way ∈ declarationPattern.ways previous text ↔
      ∃ word ∈ declarationWords, ∃ after, text = word ++ after ∧ isEdge previous text ∧
        isEdge (word.getLast?.or previous) after ∧
        ∃ tail ∈ namePattern.ways (word.getLast?.or previous) after,
          way = ⟨word ++ tail.taken, (1, word) :: tail.groups⟩ := by
  simp only [declarationPattern, Pattern.mem_ways_andThen, Pattern.mem_ways_edge, Pattern.mem_ways_group,
    Pattern.mem_ways_oneOf]
  constructor
  · rintro ⟨_, _, rfl, ⟨front, rfl⟩, _, ⟨_, _, rfl, ⟨_, ⟨word, member, _, -, rfl⟩, rfl⟩, _,
      ⟨_, after, rfl, ⟨back, rfl⟩, tail, found, rfl⟩, rfl⟩, rfl⟩
    exact ⟨word, member, after, rfl, front, back, tail, found, rfl⟩
  · rintro ⟨word, member, after, rfl, front, back, tail, found, rfl⟩
    exact ⟨⟨[], []⟩, word ++ after, rfl, ⟨front, rfl⟩, _, ⟨⟨word, [(1, word)]⟩, after, rfl,
      ⟨⟨word, []⟩, ⟨word, member, after, rfl, rfl⟩, rfl⟩, _,
      ⟨⟨[], []⟩, after, rfl, ⟨back, rfl⟩, tail, found, rfl⟩, rfl⟩, rfl⟩

/-! ## The pattern and the rule -/

theorem head?_any_identifier (identifier : isAsciiIdentifier name) (rest : List Char) :
    (name ++ rest).head?.any isWordPart := by
  obtain ⟨first, others, rfl, -⟩ := isAsciiIdentifier_iff.mp identifier
  exact isWordPart_of_mem_identifier identifier List.mem_cons_self

theorem namedBefore_of_mem_ways (found : way ∈ namePattern.ways previous text) :
    ∃ name, way.groups = [(2, name)] ∧ NamedBefore text name := by
  obtain ⟨gap, name, spaces, rest, rfl, plain, edge, identifier, blank, rfl⟩ :=
    mem_ways_namePattern.mp found
  rw [isEdge_of_head (head?_any_identifier identifier _), Bool.not_eq_true'] at edge
  refine ⟨name, rfl, gap, spaces, rest, rfl, fun c member => ?_, blank, ?_, identifier⟩
  · rcases List.mem_append.mp member with inGap | later
    · exact plain c inGap
    · rcases List.mem_append.mp later with inName | inSpaces
      · exact not_isParenthesis_of_isWordPart (isWordPart_of_mem_identifier identifier inName)
      · exact not_isParenthesis_of_isBlank (blank c inSpaces)
  · cases last : gap.getLast? with
    | none => rfl
    | some c => simpa [last] using edge

theorem exists_way_of_namedBefore (ends : text.head?.any isWordPart = false)
    (named : NamedBefore text name) :
    ∃ way ∈ namePattern.ways previous text, way.groups = [(2, name)] := by
  obtain ⟨gap, spaces, rest, rfl, plain, blank, maximal, identifier⟩ := named
  refine ⟨_, mem_ways_namePattern.mpr ⟨gap, name, spaces, rest, rfl,
    fun c member => plain c (List.mem_append_left _ member), ?_, identifier, blank, rfl⟩, rfl⟩
  rw [isEdge_of_head (head?_any_identifier identifier _), Bool.not_eq_true']
  cases last : gap.getLast? with
  | some c => simpa [last] using maximal
  | none =>
      -- Without a gap the name would continue the modifier.
      obtain rfl := List.getLast?_eq_none_iff.mp last
      rw [List.nil_append, head?_any_identifier identifier] at ends
      cases ends

theorem isEdge_before_word {word : List Char} (member : word ∈ declarationWords)
    (after : List Char) : isEdge previous (word ++ after) = !previous.any isWordPart := by
  obtain ⟨some, letters⟩ := isWordPart_of_mem_declarationWords member
  obtain ⟨first, rest, rfl⟩ := List.exists_cons_of_ne_nil some
  exact isEdge_of_head (letters first List.mem_cons_self)

theorem isEdge_after_word {word : List Char} (member : word ∈ declarationWords) (after : List Char) :
    isEdge (word.getLast?.or previous) after = !after.head?.any isWordPart := by
  obtain ⟨some, letters⟩ := isWordPart_of_mem_declarationWords member
  refine isEdge_of_previous ?_
  rw [List.getLast?_eq_some_getLast some]
  exact letters _ (List.getLast_mem some)

theorem declaredAtStart_of_mem_ways (found : way ∈ declarationPattern.ways previous text) :
    previous.any isWordPart = false ∧
      ∃ name, way.group? 2 = some name ∧ declaredAtStart text = some (String.ofList name) := by
  obtain ⟨word, member, after, rfl, front, back, tail, follows, rfl⟩ :=
    mem_ways_declarationPattern.mp found
  rw [isEdge_before_word member, Bool.not_eq_true'] at front
  rw [isEdge_after_word member, Bool.not_eq_true'] at back
  obtain ⟨name, groups, named⟩ := namedBefore_of_mem_ways follows
  refine ⟨front, name, ?_, ?_⟩
  · rw [Way.group?, groups]
    rfl
  · rw [declaredAtStart_eq_some_iff, String.toList_ofList]
    exact ⟨after, ⟨word, member, rfl, back⟩, named⟩

theorem exists_way_of_declaredAtStart {name : String} (apart : previous.any isWordPart = false)
    (declared : declaredAtStart text = some name) :
    ∃ way, way ∈ declarationPattern.ways previous text := by
  obtain ⟨after, ⟨word, member, rfl, ends⟩, named⟩ := declaredAtStart_eq_some_iff.mp declared
  obtain ⟨tail, follows, -⟩ := exists_way_of_namedBefore ends named
  refine ⟨_, mem_ways_declarationPattern.mpr
    ⟨word, member, after, rfl, ?_, ?_, tail, follows, rfl⟩⟩
  · rw [isEdge_before_word member, apart]
    rfl
  · rw [isEdge_after_word member, ends]
    rfl

theorem declaredHere_eq_head? :
    (if previous.any isWordPart then none else declaredAtStart text) =
      (declarationPattern.ways previous text).head?.bind fun way =>
        (way.group? 2).map String.ofList := by
  cases found : (declarationPattern.ways previous text).head? with
  | some way =>
      obtain ⟨apart, name, second, declared⟩ := declaredAtStart_of_mem_ways (List.mem_of_head? found)
      rw [apart, declared, Option.bind_some, second]
      rfl
  | none =>
      cases inWord : previous.any isWordPart with
      | true => rfl
      | false =>
          rw [if_neg (by simp), Option.bind_none, Option.eq_none_iff_forall_ne_some]
          intro name declared
          obtain ⟨way, member⟩ := exists_way_of_declaredAtStart inWord declared
          rw [List.head?_eq_none_iff.mp found] at member
          cases member

theorem declaredFrom_eq_firstWay (previous : Option Char) (text : List Char) :
    declaredFrom (previous.any isWordPart) text =
      (declarationPattern.firstWay previous text).bind fun way => (way.group? 2).map String.ofList := by
  induction text generalizing previous with
  | nil =>
      have nothing : declaredAtStart [] = none := by decide +kernel
      rw [Pattern.firstWay, ← declaredHere_eq_head?, nothing, ite_self]
      rfl
  | cons c rest ih =>
      rw [declaredFrom, declaredHere_eq_head?, Pattern.firstWay]
      cases found : (declarationPattern.ways previous (c :: rest)).head? with
      | none => exact ih (some c)
      | some way =>
          obtain ⟨-, name, second, -⟩ := declaredAtStart_of_mem_ways (List.mem_of_head? found)
          rw [Option.bind_some, Option.some_or, Option.bind_some, second]
          rfl

/-- The name that a line declares is the second group of the first match of the pattern. It is declared at
the first place of the line where a modifier has a name before the first parenthesis after it, and there is
none if there is no such place. -/
theorem declaredName_reading (line : List Char) :
    (declaredName line =
      (declarationPattern.firstWay none line).bind fun way => (way.group? 2).map String.ofList) ∧
    (∀ name : String, declaredName line = some name ↔
      ∃ place, DeclaresAt line place name.toList ∧
        ∀ earlier < place, ∀ other, ¬ DeclaresAt line earlier other) ∧
    (declaredName line = none ↔ ∀ place name, ¬ DeclaresAt line place name) := by
  have found := declaredFrom_eq [] line
  have start : declaredFrom (([] : List Char).getLast?.any isWordPart) line = declaredName line := rfl
  simp only [start, List.nil_append, List.length_nil, Nat.zero_le, forall_const] at found
  refine ⟨declaredFrom_eq_firstWay none line, ?_⟩
  cases result : declaredName line with
  | none =>
      rw [result] at found
      refine ⟨fun name => ?_, iff_of_true rfl found⟩
      refine iff_of_false nofun ?_
      rintro ⟨place, declares, -⟩
      exact found place _ declares
  | some name =>
      rw [result] at found
      obtain ⟨place, declares, first⟩ := found
      refine ⟨fun other => ?_, iff_of_false nofun fun nowhere => nowhere place _ declares⟩
      constructor
      · intro same
        obtain rfl := Option.some.inj same
        exact ⟨place, declares, fun earlier before other => first earlier other before⟩
      · rintro ⟨place', declares', first'⟩
        -- Two first places are the same place, and a place declares one name only.
        rcases Nat.lt_trichotomy place place' with before | rfl | after
        · exact absurd declares (first' place before _)
        · exact congrArg some (String.toList_injective (declares.unique declares'))
        · exact absurd declares' (first place' _ after)

example : declaredName "public größe() static max (a(b)".toList = some "max" := by decide +kernel

example : declaredName "public void \u0897run()".toList = none := by decide +kernel

end CallContext.Diff
