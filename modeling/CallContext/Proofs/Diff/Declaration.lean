import CallContext.Diff.Declaration
import CallContext.Proofs.Text.CodeRange
import Mathlib.Data.List.Induction

/-!
White space around a line has no part in whether the line looks like a declaration: a modifier begins and
ends with a letter, and nothing after the opening parenthesis counts.
-/

namespace CallContext

namespace Text

theorem areApart_wordPart : areApart CodeRange.wordPart.toList blankRanges := by
  decide +kernel

theorem not_isWordPart_of_isBlank {c : Char} (blank : isBlank c) : isWordPart c = false := by
  by_cases ascii : c.toNat < 0x80
  · have each : ∀ n < 0x80, isBlank (Char.ofNat n) → isWordPart (Char.ofNat n) = false := by decide
    have this := each c.toNat ascii
    rw [Char.ofNat_toNat] at this
    exact this blank
  · rw [isWordPart, if_neg ascii]
    by_contra letter
    rw [Bool.not_eq_false] at letter
    rw [not_isBlank_of_inRanges areApart_wordPart (Nat.le_of_not_lt ascii) letter] at blank
    cases blank

end Text

namespace Diff

open Text

variable {c : Char}

theorem not_isParenthesis_of_isBlank (blank : isBlank c) : isParenthesis c = false := by
  by_contra parenthesis
  simp only [isParenthesis, Bool.not_eq_false, Bool.or_eq_true, beq_iff_eq] at parenthesis
  rcases parenthesis with rfl | rfl
  · exact absurd blank (by decide)
  · exact absurd blank (by decide)

theorem solid_of_mem_declarationWords {word : List Char} (member : word ∈ declarationWords) :
    word ≠ [] ∧ ∀ d ∈ word, isBlank d = false := by
  have all : declarationWords.all fun word => word ≠ [] && word.all fun d => isBlank d = false := by
    decide +kernel
  simpa using List.all_eq_true.mp all word member

theorem declaredAtStart_cons_blank (blank : isBlank c) (text : List Char) :
    declaredAtStart (c :: text) = none := by
  have nowhere : (declarationWords.findSome? fun word => afterWord word (c :: text)) = none := by
    rw [List.findSome?_eq_none_iff]
    intro word member
    obtain ⟨some, solid⟩ := solid_of_mem_declarationWords member
    obtain ⟨first, rest, rfl⟩ := List.exists_cons_of_ne_nil some
    have apart : first ≠ c := by
      rintro rfl
      rw [solid first (by simp)] at blank
      cases blank
    simp [afterWord, List.isPrefixOf, apart]
  rw [declaredAtStart, nowhere, Option.bind_none]

theorem declaredName_cons_blank (blank : isBlank c) (text : List Char) :
    declaredName (c :: text) = declaredName text := by
  rw [declaredName, declaredFrom, declaredAtStart_cons_blank blank, not_isWordPart_of_isBlank blank]
  rfl

theorem declaredName_dropWhile (text : List Char) :
    declaredName (text.dropWhile isBlank) = declaredName text := by
  induction text with
  | nil => rfl
  | cons c rest ih =>
      by_cases blank : isBlank c
      · rw [List.dropWhile_cons_of_pos blank, ih, declaredName_cons_blank blank]
      · rw [List.dropWhile_cons_of_neg blank]

theorem nameBeforeParenthesis_concat (blank : isBlank c) (text : List Char) :
    nameBeforeParenthesis (text ++ [c]) = nameBeforeParenthesis text := by
  have plain := not_isParenthesis_of_isBlank blank
  unfold nameBeforeParenthesis
  rw [List.dropWhile_append, List.takeWhile_append]
  cases later : text.dropWhile (!isParenthesis ·) with
  | nil => simp [plain]
  | cons first rest =>
      have inside : (text.takeWhile (!isParenthesis ·)).length ≠ text.length := by
        intro whole
        have lengths := congrArg List.length
          (List.takeWhile_append_dropWhile (p := (!isParenthesis ·)) (l := text))
        rw [List.length_append, whole, later] at lengths
        simp at lengths
      rw [if_neg inside]
      by_cases opens : first = '('
      · subst opens
        rfl
      · simp [opens]

theorem afterWord_concat (blank : isBlank c) {word : List Char} (solid : ∀ d ∈ word, isBlank d = false)
    (text : List Char) :
    afterWord word (text ++ [c]) = (afterWord word text).map (· ++ [c]) := by
  have apart : word ≠ text ++ [c] := by
    rintro rfl
    rw [solid c (by simp)] at blank
    cases blank
  have same : word.isPrefixOf (text ++ [c]) = word.isPrefixOf text := by
    rw [Bool.eq_iff_iff, List.isPrefixOf_iff_prefix, List.isPrefixOf_iff_prefix,
      List.prefix_concat_iff, or_iff_right apart]
  unfold afterWord
  rw [same]
  cases begins : word.isPrefixOf text with
  | false => rfl
  | true =>
      have short := (List.isPrefixOf_iff_prefix.mp begins).length_le
      have ends : ((text.drop word.length ++ [c]).head?.any isWordPart) =
          (text.drop word.length).head?.any isWordPart := by
        cases text.drop word.length with
        | nil => simp [not_isWordPart_of_isBlank blank]
        | cons d rest => rfl
      rw [List.drop_append_of_le_length short, ends]
      split_ifs <;> rfl

theorem findSome?_afterWord_concat (blank : isBlank c) {words : List (List Char)}
    (solid : ∀ word ∈ words, ∀ d ∈ word, isBlank d = false) (text : List Char) :
    (words.findSome? fun word => afterWord word (text ++ [c])) =
      (words.findSome? fun word => afterWord word text).map (· ++ [c]) := by
  induction words with
  | nil => rfl
  | cons word rest ih =>
      rw [List.findSome?_cons, List.findSome?_cons, afterWord_concat blank (solid word (by simp)),
        ih fun other member => solid other (by simp [member])]
      cases afterWord word text <;> rfl

theorem declaredAtStart_concat (blank : isBlank c) (text : List Char) :
    declaredAtStart (text ++ [c]) = declaredAtStart text := by
  have solid : ∀ word ∈ declarationWords, ∀ d ∈ word, isBlank d = false :=
    fun word member => (solid_of_mem_declarationWords member).2
  rw [declaredAtStart, findSome?_afterWord_concat blank solid, declaredAtStart, Option.bind_map]
  congr 1
  funext text
  exact nameBeforeParenthesis_concat blank text

theorem declaredFrom_concat (blank : isBlank c) (insideWord : Bool) (text : List Char) :
    declaredFrom insideWord (text ++ [c]) = declaredFrom insideWord text := by
  induction text generalizing insideWord with
  | nil => cases insideWord <;> simp [declaredFrom, declaredAtStart_cons_blank blank]
  | cons d rest ih =>
      have here := declaredAtStart_concat blank (d :: rest)
      rw [List.cons_append] at here
      rw [List.cons_append, declaredFrom, declaredFrom, here, ih]

theorem declaredName_trimEnd (text : List Char) : declaredName (trimEnd text) = declaredName text := by
  induction text using List.reverseRecOn with
  | nil => rfl
  | append_singleton text c ih =>
      by_cases blank : isBlank c
      · have shorter : trimEnd (text ++ [c]) = trimEnd text := by simp [trimEnd, blank]
        rw [shorter, ih]
        exact (declaredFrom_concat blank false text).symm
      · have whole : trimEnd (text ++ [c]) = text ++ [c] := by simp [trimEnd, blank]
        rw [whole]

theorem declaredName_trim (text : List Char) : declaredName (trim text) = declaredName text := by
  rw [trim, declaredName_trimEnd, declaredName_dropWhile]

end Diff

end CallContext
