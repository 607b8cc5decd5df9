import Mathlib.Data.List.Basic
import CallContext.Java.Identifier
import CallContext.Java.TypeText
import CallContext.Proofs.Name
import CallContext.Proofs.Text.CodeRange

namespace CallContext

open Text

namespace Java.TypeText

def isPlainCharacter (c : Char) : Bool :=
  !isBlank c && c != '<' && c != '>'

def IsPlain (text : String) : Prop :=
  ∀ c ∈ text.toList, isPlainCharacter c

instance (text : String) : Decidable (IsPlain text) :=
  decidable_of_iff (text.toList.all isPlainCharacter) List.all_eq_true

theorem isPlain_member {owner name : String} (left : IsPlain owner) (right : IsPlain name) :
    IsPlain (Name.member owner name) := by
  intro c member
  rw [Name.toList_member] at member
  rcases List.mem_append.mp member with before | after
  · exact left c before
  · rcases List.mem_cons.mp after with rfl | after
    · decide
    · exact right c after

theorem isPlain_join_pair {qualifier name : String} (left : IsPlain qualifier) (right : IsPlain name) :
    IsPlain (Name.join '.' [qualifier, name]) := by
  rw [Name.join_pair]
  split_ifs
  · exact right
  · exact left
  · exact isPlain_member left right

theorem isPlain_append {first second : String} (left : IsPlain first) (right : IsPlain second) :
    IsPlain (first ++ second) := by
  intro c member
  rw [String.toList_append] at member
  exact (List.mem_append.mp member).elim (left c) (right c)

theorem eraseFrom_plain_append {text : List Char} (plain : ∀ c ∈ text, isPlainCharacter c) (depth : Nat)
    (rest : List Char) :
    eraseFrom depth (text ++ rest) = (if depth = 0 then text else []) ++ eraseFrom depth rest := by
  induction text with
  | nil => simp
  | cons c text ih =>
      have first := plain c List.mem_cons_self
      simp only [isPlainCharacter, Bool.and_eq_true, Bool.not_eq_true', bne_iff_ne] at first
      obtain ⟨⟨solid, notOpen⟩, notClosed⟩ := first
      rw [List.cons_append, eraseFrom, if_neg notOpen, if_neg notClosed, solid,
        ih fun c member => plain c (List.mem_cons_of_mem _ member)]
      by_cases outside : depth = 0 <;> simp [outside]

theorem eraseFrom_of_plain {text : List Char} (plain : ∀ c ∈ text, isPlainCharacter c) :
    eraseFrom 0 text = text := by
  have kept := eraseFrom_plain_append plain 0 []
  rwa [List.append_nil, if_pos rfl, eraseFrom, List.append_nil] at kept

theorem eraseFrom_open (depth : Nat) (rest : List Char) :
    eraseFrom depth ('<' :: rest) = eraseFrom (depth + 1) rest := by
  rw [eraseFrom, if_pos rfl]

theorem eraseFrom_close (depth : Nat) (rest : List Char) :
    eraseFrom (depth + 1) ('>' :: rest) = eraseFrom depth rest := by
  rw [eraseFrom, if_neg (by decide), if_pos rfl, Nat.add_sub_cancel]

theorem eraseFrom_inner {c : Char} (other : c ≠ '<' ∧ c ≠ '>') (depth : Nat) (rest : List Char) :
    eraseFrom (depth + 1) (c :: rest) = eraseFrom (depth + 1) rest := by
  simp [eraseFrom, other]

theorem plain_of_mem_eraseFrom {depth : Nat} {text : List Char} {c : Char}
    (kept : c ∈ eraseFrom depth text) : isPlainCharacter c := by
  induction text generalizing depth with
  | nil => simp [eraseFrom] at kept
  | cons first rest ih =>
      rw [eraseFrom] at kept
      split_ifs at kept with opened closed solid
      · exact ih kept
      · exact ih kept
      · rcases List.mem_cons.mp kept with rfl | later
        · simp only [Bool.and_eq_true] at solid
          simp [isPlainCharacter, solid.2, opened, closed]
        · exact ih later
      · exact ih kept

theorem erase_of_isPlain {text : String} (plain : IsPlain text) : erase text = text := by
  rw [erase, eraseFrom_of_plain plain, String.ofList_toList]

theorem isPlain_erase (written : String) : IsPlain (erase written) := by
  intro c member
  rw [erase, String.toList_ofList] at member
  exact plain_of_mem_eraseFrom member

end Java.TypeText

namespace Java

open TypeText

theorem plain_of_isIdentifierPart {c : Char} (part : isIdentifierStart c ∨ isIdentifierPart c) :
    isPlainCharacter c ∧ c ≠ '.' := by
  by_cases ascii : c.toNat < 0x80
  · have each : ∀ n < 0x80, isIdentifierStart (Char.ofNat n) ∨ isIdentifierPart (Char.ofNat n) →
        isPlainCharacter (Char.ofNat n) ∧ Char.ofNat n ≠ '.' := by decide
    have this := each c.toNat ascii
    rw [Char.ofNat_toNat] at this
    exact this part
  · have beyond : 0x80 ≤ c.toNat := Nat.le_of_not_lt ascii
    have apart (sign : Char) (small : sign.toNat < 0x80) : c ≠ sign := by
      rintro rfl
      exact ascii small
    have solid : isBlank c = false := by
      simp only [isIdentifierStart, isIdentifierPart, if_neg ascii, Bool.or_eq_true,
        beq_iff_eq] at part
      rcases part with start | rfl | part
      · exact not_isBlank_of_inRanges areApart_identifiers.1 beyond start
      · decide
      · exact not_isBlank_of_inRanges areApart_identifiers.2 beyond part
    simp [isPlainCharacter, solid, apart '<' (by decide), apart '>' (by decide), apart '.' (by decide)]

theorem isIdentifier_ne_empty {text : String} (proper : isIdentifier text) : text ≠ "" := by
  rintro rfl
  cases proper

theorem plain_of_mem_isIdentifier {text : String} (proper : isIdentifier text) {c : Char}
    (member : c ∈ text.toList) : isPlainCharacter c ∧ c ≠ '.' := by
  rw [isIdentifier] at proper
  split at proper
  · cases proper
  · rename_i first rest spelled
    obtain ⟨start, parts⟩ := (Bool.and_eq_true _ _).mp proper
    rw [spelled] at member
    rcases List.mem_cons.mp member with rfl | later
    · exact plain_of_isIdentifierPart (.inl start)
    · exact plain_of_isIdentifierPart (.inr (List.all_eq_true.mp parts c later))

namespace Identifier

variable (id : Identifier)

theorem text_ne_empty : id.text ≠ "" :=
  isIdentifier_ne_empty id.proper

theorem isPlain_text : IsPlain id.text :=
  fun _ member => (plain_of_mem_isIdentifier id.proper member).1

theorem dot_not_mem_text : '.' ∉ id.text.toList :=
  fun member => (plain_of_mem_isIdentifier id.proper member).2 rfl

end Identifier

end Java

end CallContext
