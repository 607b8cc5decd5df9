import CallContext.Text.Blank
import Mathlib.Data.List.Basic

namespace CallContext.Text

def IsWord (word : List Char) : Prop :=
  word ≠ [] ∧ ∀ c ∈ word, isBlank c = false

/-- Of a pending word and what follows it, a blank separates what comes after. Everything below about
texts in parts is a case of this. -/
theorem wordsAfter_append_blank {c : Char} (blank : isBlank c) (pending before after : List Char) :
    wordsAfter pending (before ++ c :: after) = wordsAfter pending before ++ words after := by
  induction before generalizing pending with
  | nil => cases pending <;> simp [wordsAfter, blank, words]
  | cons d before ih =>
      cases pending with
      | nil =>
          rw [List.cons_append, wordsAfter, wordsAfter]
          split_ifs
          · exact ih []
          · exact ih [d]
      | cons last pending =>
          rw [List.cons_append, wordsAfter, wordsAfter]
          split_ifs
          · rw [ih, List.cons_append]
          · exact ih _

theorem words_append_blank {c : Char} (blank : isBlank c) (before after : List Char) :
    words (before ++ c :: after) = words before ++ words after :=
  wordsAfter_append_blank blank [] before after

theorem words_cons_blank {c : Char} (blank : isBlank c) (after : List Char) :
    words (c :: after) = words after :=
  words_append_blank blank [] after

theorem words_append {before after : List Char}
    (apart : after.head?.all isBlank ∨ before.getLast?.all isBlank) :
    words (before ++ after) = words before ++ words after := by
  rcases apart with opened | closed
  · cases after with
    | nil => simp [words, wordsAfter]
    | cons c after =>
        have blank : isBlank c := by simpa using opened
        rw [words_append_blank blank, words_cons_blank blank]
  · rcases List.eq_nil_or_concat' before with rfl | ⟨initial, c, rfl⟩
    · rfl
    · have blank : isBlank c := by simpa using closed
      rw [List.append_assoc, List.singleton_append, words_append_blank blank,
        words_append_blank blank initial []]
      simp [words, wordsAfter]

theorem isWord_of_all {word : List Char} (some : word ≠ [])
    (solid : word.all fun c => isBlank c = false) : IsWord word :=
  ⟨some, by simpa using solid⟩

theorem IsWord.append {start text : List Char} (isWord : IsWord start)
    (solid : ∀ c ∈ text, isBlank c = false) : IsWord (start ++ text) :=
  ⟨List.append_ne_nil_of_left_ne_nil isWord.1 text, fun c member =>
    (List.mem_append.mp member).elim (isWord.2 c) (solid c)⟩

theorem wordsAfter_append_of_not_blank {word : List Char} (solid : ∀ c ∈ word, isBlank c = false)
    (pending after : List Char) :
    wordsAfter pending (word ++ after) = wordsAfter (word.reverse ++ pending) after := by
  induction word generalizing pending with
  | nil => rfl
  | cons c word ih =>
      have letter : isBlank c = false := solid c (by simp)
      have next : wordsAfter pending (c :: (word ++ after)) =
          wordsAfter (c :: pending) (word ++ after) := by
        cases pending <;> simp [wordsAfter, letter]
      rw [List.cons_append, next, ih fun d member => solid d (by simp [member])]
      simp

theorem IsWord.words_eq {word : List Char} (isWord : IsWord word) : words word = [word] := by
  have read := wordsAfter_append_of_not_blank isWord.2 [] []
  rw [List.append_nil, List.append_nil] at read
  obtain ⟨last, rest, reversed⟩ := List.exists_cons_of_ne_nil (List.reverse_ne_nil_iff.mpr isWord.1)
  rw [words, read, reversed, wordsAfter, ← reversed, List.reverse_reverse]
  simp

theorem isWord_of_mem_wordsAfter {pending text : List Char}
    (solid : ∀ c ∈ pending, isBlank c = false) :
    ∀ word ∈ wordsAfter pending text, IsWord word := by
  have closed {last : Char} {rest : List Char} (all : ∀ c ∈ last :: rest, isBlank c = false) :
      IsWord (last :: rest).reverse :=
    ⟨by simp, fun c member => all c (List.mem_reverse.mp member)⟩
  induction text generalizing pending with
  | nil =>
      cases pending with
      | nil => simp [wordsAfter]
      | cons last rest =>
          intro word member
          rw [wordsAfter, List.mem_singleton] at member
          · exact member ▸ closed solid
          · simp
  | cons d text ih =>
      cases pending with
      | nil =>
          rw [wordsAfter]
          split_ifs with blank
          · exact ih solid
          · exact ih (by simpa using blank)
      | cons last rest =>
          rw [wordsAfter]
          split_ifs with blank
          · intro word member
            rcases List.mem_cons.mp member with rfl | later
            · exact closed solid
            · exact ih (by simp) word later
          · exact ih (by simpa [blank] using solid)

theorem isWord_of_mem_words {text word : List Char} (member : word ∈ words text) : IsWord word :=
  isWord_of_mem_wordsAfter (by simp) word member

theorem flatten_wordsAfter (pending text : List Char) :
    (wordsAfter pending text).flatten = pending.reverse ++ text.filter (!isBlank ·) := by
  induction text generalizing pending with
  | nil => cases pending <;> simp [wordsAfter]
  | cons c text ih => cases pending <;> cases blank : isBlank c <;> simp [wordsAfter, blank, ih]

theorem flatten_words (text : List Char) : (words text).flatten = text.filter (!isBlank ·) :=
  flatten_wordsAfter [] text

theorem length_le_of_mem_words {text word : List Char} (member : word ∈ words text) :
    word.length ≤ text.length := by
  have inside := List.sublist_flatten_of_mem member
  rw [flatten_words] at inside
  exact (inside.trans List.filter_sublist).length_le

theorem words_ne_nil {text : List Char} {c : Char} (member : c ∈ text) (letter : isBlank c = false) :
    words text ≠ [] := by
  intro none
  have kept : c ∈ (words text).flatten := by
    rw [flatten_words]
    exact List.mem_filter.mpr ⟨member, by rw [letter]; rfl⟩
  rw [none] at kept
  cases kept

theorem words_spaced {found : List (List Char)} (all : ∀ word ∈ found, IsWord word) :
    words (found.intersperse [' ']).flatten = found := by
  induction found with
  | nil => rfl
  | cons first rest ih =>
      have read := (all first (by simp)).words_eq
      cases rest with
      | nil => simpa using read
      | cons second others =>
          rw [List.intersperse_cons_cons, List.flatten_cons, List.flatten_cons,
            List.singleton_append, words_append_blank (by decide), read,
            ih fun word member => all word (by simp [List.mem_cons.mp member])]
          rfl

end CallContext.Text
