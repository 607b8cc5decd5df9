import CallContext.Proofs.Java.TypeText
import CallContext.Proofs.Text.Squash
import Mathlib.Data.List.Infix

/-!
Laws of erasing. White space in a text does not matter to it, and erasing a text in parts is erasing the parts
as long as each part closes the angle brackets that it opens. Erasing and squashing are projections, onto plain
texts and onto those with single spaces, and plain texts are squashed.
-/

namespace CallContext.Java.TypeText

open Text

def depthAfter : Nat → List Char → Nat
  | depth, [] => depth
  | depth, c :: rest =>
    depthAfter (if c = '<' then depth + 1 else if c = '>' then depth - 1 else depth) rest

theorem eraseFrom_append (depth : Nat) (before after : List Char) :
    eraseFrom depth (before ++ after) =
      eraseFrom depth before ++ eraseFrom (depthAfter depth before) after := by
  induction before generalizing depth with
  | nil => rfl
  | cons c rest ih =>
      rw [List.cons_append, eraseFrom, eraseFrom, depthAfter]
      split_ifs <;> simp [ih]

theorem depthAfter_append (depth : Nat) (before after : List Char) :
    depthAfter depth (before ++ after) = depthAfter (depthAfter depth before) after := by
  induction before generalizing depth with
  | nil => rfl
  | cons c rest ih => rw [List.cons_append, depthAfter, depthAfter, ih]

theorem no_bracket_of_isBlank {c : Char} (blank : isBlank c) : c ≠ '<' ∧ c ≠ '>' := by
  constructor
  · rintro rfl
    cases blank
  · rintro rfl
    cases blank

theorem eraseFrom_filter (depth : Nat) (text : List Char) :
    eraseFrom depth (text.filter (!isBlank ·)) = eraseFrom depth text := by
  induction text generalizing depth with
  | nil => rfl
  | cons c rest ih =>
      by_cases blank : isBlank c
      · simp [eraseFrom, blank, no_bracket_of_isBlank blank, ih]
      · simp [eraseFrom, blank, ih]

theorem depthAfter_filter (depth : Nat) (text : List Char) :
    depthAfter depth (text.filter (!isBlank ·)) = depthAfter depth text := by
  induction text generalizing depth with
  | nil => rfl
  | cons c rest ih =>
      by_cases blank : isBlank c
      · simp [depthAfter, blank, no_bracket_of_isBlank blank, ih]
      · simp [depthAfter, blank, ih]

theorem filter_squash (text : String) :
    (squash text).toList.filter (!isBlank ·) = text.toList.filter (!isBlank ·) := by
  rw [← flatten_words, ← flatten_words, squash, String.toList_ofList,
    words_spaced fun _ member => isWord_of_mem_words member]

theorem erase_squash (text : String) : erase (squash text) = erase text := by
  rw [erase, erase, ← eraseFrom_filter, filter_squash, eraseFrom_filter]

def IsClosed (text : String) : Prop :=
  depthAfter 0 text.toList = 0

theorem IsClosed.append {first second : String} (left : IsClosed first) (right : IsClosed second) :
    IsClosed (first ++ second) := by
  rw [IsClosed, String.toList_append, depthAfter_append, left, right]

theorem IsClosed.erase_append {first : String} (closed : IsClosed first) (second : String) :
    erase (first ++ second) = erase first ++ erase second := by
  rw [erase, String.toList_append, eraseFrom_append, closed, String.ofList_append, erase, erase]

theorem IsClosed.squash {text : String} (closed : IsClosed text) : IsClosed (squash text) := by
  rw [IsClosed, ← depthAfter_filter, filter_squash, depthAfter_filter, closed]

theorem isClosed_of_isPlain {text : String} (plain : IsPlain text) : IsClosed text := by
  have all (letters : List Char) (each : ∀ c ∈ letters, isPlainCharacter c) :
      depthAfter 0 letters = 0 := by
    induction letters with
    | nil => rfl
    | cons c rest ih =>
        have first := each c List.mem_cons_self
        simp only [isPlainCharacter, Bool.and_eq_true, bne_iff_ne] at first
        rw [depthAfter, if_neg first.1.2, if_neg first.2]
        exact ih fun d member => each d (List.mem_cons_of_mem _ member)
  exact all text.toList plain

theorem isClosed_joinWith {separator : String} (apart : IsClosed separator) {texts : List String}
    (closed : ∀ text ∈ texts, IsClosed text) : IsClosed (joinWith separator texts) := by
  induction texts with
  | nil => rfl
  | cons first rest ih =>
      cases rest with
      | nil => exact closed first List.mem_cons_self
      | cons second others =>
          rw [joinWith]
          · exact ((closed first List.mem_cons_self).append apart).append
              (ih fun text member => closed text (List.mem_cons_of_mem _ member))
          · simp

theorem erase_joinWith {separator : String} (apart : IsClosed separator) {texts : List String}
    (closed : ∀ text ∈ texts, IsClosed text) :
    erase (joinWith separator texts) = joinWith (erase separator) (texts.map erase) := by
  induction texts with
  | nil => rfl
  | cons first rest ih =>
      cases rest with
      | nil => rfl
      | cons second others =>
          have firstClosed := closed first List.mem_cons_self
          rw [joinWith, (firstClosed.append apart).erase_append, firstClosed.erase_append,
            ih fun text member => closed text (List.mem_cons_of_mem _ member)]
          · rfl
          · simp

/-- No front of the text closes more angle brackets than it opens, and the whole text closes all. -/
def IsBalanced (text : String) : Prop :=
  (∀ front, front <+: text.toList → front.count '>' ≤ front.count '<') ∧
    text.toList.count '<' = text.toList.count '>'

instance (text : String) : Decidable (IsBalanced text) :=
  have iff : (∀ front ∈ text.toList.inits, front.count '>' ≤ front.count '<') ↔
      ∀ front, front <+: text.toList → front.count '>' ≤ front.count '<' := by
    simp only [List.mem_inits]
  haveI := decidable_of_iff _ iff
  inferInstanceAs (Decidable (_ ∧ _))

theorem depthAfter_add_count (depth : Nat) {text : List Char}
    (enough : ∀ front, front <+: text → front.count '>' ≤ depth + front.count '<') :
    depthAfter depth text + text.count '>' = depth + text.count '<' := by
  induction text generalizing depth with
  | nil => rfl
  | cons c rest ih =>
      rw [depthAfter]
      have longer (front : List Char) (begins : front <+: rest) := enough (c :: front)
        (List.cons_prefix_cons.mpr ⟨rfl, begins⟩)
      split_ifs with opened closed
      · subst opened
        have inner := ih (depth + 1) fun front begins => by
          have whole := longer front begins
          rw [List.count_cons_self, List.count_cons_of_ne (by decide)] at whole
          omega
        rw [List.count_cons_self, List.count_cons_of_ne (by decide)]
        omega
      · subst closed
        -- The closing bracket alone is a front, so some bracket is open.
        have some : 1 ≤ depth := by simpa using longer [] List.nil_prefix
        have inner := ih (depth - 1) fun front begins => by
          have whole := longer front begins
          rw [List.count_cons_self, List.count_cons_of_ne (by decide)] at whole
          omega
        rw [List.count_cons_self, List.count_cons_of_ne (by decide)]
        omega
      · have inner := ih depth fun front begins => by
          have whole := longer front begins
          rwa [List.count_cons_of_ne closed, List.count_cons_of_ne opened] at whole
        rwa [List.count_cons_of_ne closed, List.count_cons_of_ne opened]

theorem IsBalanced.isClosed {text : String} (balanced : IsBalanced text) : IsClosed text := by
  have counted := depthAfter_add_count 0 fun front begins => by
    simpa using balanced.1 front begins
  have even := balanced.2
  rw [IsClosed]
  omega

theorem erase_eq_self_iff {text : String} : erase text = text ↔ IsPlain text := by
  constructor
  · intro same
    rw [← same]
    exact isPlain_erase text
  · exact erase_of_isPlain

theorem IsPlain.isSpaced {text : String} (plain : IsPlain text) : IsSpaced text.toList := by
  refine isSpaced_of_solid fun c member => ?_
  have kept := plain c member
  simp only [isPlainCharacter, Bool.and_eq_true, Bool.not_eq_true'] at kept
  exact kept.1.1

/-- Erasing leaves plain texts as they are and squashing those with single spaces, and each gives such texts.
Squashing changes nothing for erasing, nor anything after it. After a balanced text, whatever follows is erased
by itself. -/
theorem erase_squash_projections :
    (∀ text, (erase text = text ↔ IsPlain text) ∧ (squash text = text ↔ IsSpaced text.toList)) ∧
    (∀ text, erase (erase text) = erase text ∧ squash (squash text) = squash text ∧
      erase (squash text) = erase text ∧ squash (erase text) = erase text) ∧
    ∀ first, IsBalanced first → ∀ second, erase (first ++ second) = erase first ++ erase second := by
  refine ⟨fun text => ⟨erase_eq_self_iff, squash_eq_self_iff⟩, fun text => ?_, fun first balanced second => ?_⟩
  · have plain := isPlain_erase text
    exact ⟨erase_eq_self_iff.mpr plain, squash_eq_self_iff.mpr (isSpaced_squash text), erase_squash text,
      squash_eq_self_iff.mpr plain.isSpaced⟩
  · exact balanced.isClosed.erase_append second

theorem erase_squash_projections_nested :
    IsBalanced "Map<K, List<V>>" ∧
    erase ("Map<K, List<V>>" ++ "> [ ] <T") = erase "Map<K, List<V>>" ++ erase "> [ ] <T" ∧
    erase "Map<K, List<V>>" = "Map" ∧ erase "> [ ] <T" = "[]" := by
  have balanced : IsBalanced "Map<K, List<V>>" := by decide
  exact ⟨balanced, erase_squash_projections.2.2 _ balanced _, by decide, by decide⟩

example : erase ("List<" ++ "V") = "List" ∧ erase "List<" ++ erase "V" = "ListV" := by decide

end CallContext.Java.TypeText
