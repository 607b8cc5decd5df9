import CallContext.Text.Blank
import Mathlib.Data.List.DropRight
import Mathlib.Data.List.TakeWhile

namespace CallContext.Text

variable {text : List Char}

def IsTrimmed (text : List Char) : Prop :=
  text.head?.any isBlank = false ∧ text.getLast?.any isBlank = false

instance (text : List Char) : Decidable (IsTrimmed text) :=
  inferInstanceAs (Decidable (_ ∧ _))

theorem isPrefix_trimEnd (text : List Char) : trimEnd text <+: text :=
  List.rdropWhile_prefix isBlank text

theorem isInfix_trim (text : List Char) : trim text <:+: text :=
  (isPrefix_trimEnd _).isInfix.trans (List.dropWhile_suffix isBlank).isInfix

theorem dropWhile_isBlank_eq_self_iff :
    text.dropWhile isBlank = text ↔ text.head?.any isBlank = false := by
  rw [List.dropWhile_eq_self_iff]
  cases text <;> simp

theorem trimEnd_eq_self_iff : trimEnd text = text ↔ text.getLast?.any isBlank = false := by
  have same : trimEnd text = text.rdropWhile isBlank := rfl
  rw [same, List.rdropWhile_eq_self_iff]
  cases text using List.reverseRecOn <;> simp

theorem trim_eq_self_iff : trim text = text ↔ IsTrimmed text := by
  constructor
  · intro whole
    have front : text.dropWhile isBlank = text := by
      refine (List.dropWhile_suffix isBlank).eq_of_length (Nat.le_antisymm ?_ ?_)
      · exact (List.dropWhile_suffix isBlank).length_le
      · exact (congrArg List.length whole).symm.le.trans (isPrefix_trimEnd _).length_le
    rw [trim, front] at whole
    exact ⟨dropWhile_isBlank_eq_self_iff.mp front, trimEnd_eq_self_iff.mp whole⟩
  · rintro ⟨front, back⟩
    rw [trim, dropWhile_isBlank_eq_self_iff.mpr front, trimEnd_eq_self_iff.mpr back]

theorem trim_of_solid (solid : ∀ c ∈ text, isBlank c = false) : trim text = text := by
  refine trim_eq_self_iff.mpr ⟨?_, ?_⟩
  · cases first : text.head? with
    | none => rfl
    | some c => exact solid c (List.mem_of_head? first)
  · cases last : text.getLast? with
    | none => rfl
    | some c => exact solid c (List.mem_of_getLast? last)

theorem trim_concat_blank {c : Char} (blank : isBlank c) (solid : ∀ d ∈ text, isBlank d = false) :
    trim (text ++ [c]) = text := by
  cases text with
  | nil => simp [trim, trimEnd, blank]
  | cons first rest =>
      have front : ((first :: rest) ++ [c]).dropWhile isBlank = (first :: rest) ++ [c] := by
        simp [solid first]
      have whole := trim_of_solid solid
      have start : (first :: rest).dropWhile isBlank = first :: rest := by simp [solid first]
      rw [trim, start] at whole
      rw [trim, front, trimEnd, List.reverse_append, List.reverse_singleton, List.singleton_append,
        List.dropWhile_cons_of_pos blank]
      exact whole

end CallContext.Text
