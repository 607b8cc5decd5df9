import CallContext.Proofs.Text.Lines
import CallContext.Text.Blank
import CallContext.Text.Numeral

namespace CallContext.Text

theorem le_ofDigitChars (digits : List Char) (value : Nat) :
    value ≤ Nat.ofDigitChars 10 digits value := by
  induction digits generalizing value with
  | nil => exact Nat.le_refl value
  | cons c rest ih =>
      rw [Nat.ofDigitChars_cons]
      exact Nat.le_trans (by omega) (ih _)

theorem digitsFrom_eq_some {digits : List Char} (all : ∀ c ∈ digits, c.isDigit) {value : Nat}
    (fits : Nat.ofDigitChars 10 digits value ≤ maxNumber) :
    digitsFrom value digits = some (Nat.ofDigitChars 10 digits value) := by
  induction digits generalizing value with
  | nil => rfl
  | cons c rest ih =>
      rw [Nat.ofDigitChars_cons] at fits ⊢
      have small : 10 * value + (c.toNat - '0'.toNat) ≤ maxNumber :=
        Nat.le_trans (le_ofDigitChars rest _) fits
      rw [digitsFrom, if_pos (all c List.mem_cons_self), if_pos small]
      exact ih (fun d member => all d (List.mem_cons_of_mem c member)) fits

def numeralOf (number : Nat) : List Char :=
  (toString number).toList

theorem not_mem_numeralOf {mark : Char} (other : mark.isDigit = false) (number : Nat) :
    mark ∉ numeralOf number := by
  intro member
  rw [isDigit_of_mem_toString member] at other
  cases other

theorem solid_numeralOf (number : Nat) : ∀ c ∈ numeralOf number, isBlank c = false := by
  intro c member
  have digit : c.isDigit := isDigit_of_mem_toString member
  have ascii : c.toNat < 0x80 := by
    simp only [Char.isDigit, Bool.and_eq_true, decide_eq_true_eq] at digit
    exact Nat.lt_of_le_of_lt (UInt32.le_iff_toNat_le.mp digit.2) (by decide)
  have each : ∀ n < 0x80, (Char.ofNat n).isDigit → isBlank (Char.ofNat n) = false := by decide
  have this := each c.toNat ascii
  rw [Char.ofNat_toNat] at this
  exact this digit

theorem readNumber_numeralOf {number : Nat} (fits : number ≤ maxNumber) :
    readNumber (numeralOf number) = some number := by
  have digits : ∀ c ∈ numeralOf number, c.isDigit := fun c => isDigit_of_mem_toString
  have value : Nat.ofDigitChars 10 (numeralOf number) 0 = number := by
    rw [numeralOf, Nat.toString_eq_ofList_toDigits, String.toList_ofList,
      Nat.ofDigitChars_ten_toDigits]
  have some : numeralOf number ≠ [] := by
    rw [numeralOf, Nat.toString_eq_ofList_toDigits, String.toList_ofList]
    exact Nat.toDigits_ne_nil
  have read := digitsFrom_eq_some digits (value.symm ▸ fits)
  rw [value] at read
  cases spelled : numeralOf number with
  | nil => exact absurd spelled some
  | cons first rest =>
      rw [spelled] at read digits
      have unsigned : first ≠ '+' := by
        rintro rfl
        exact absurd (digits '+' List.mem_cons_self) (by decide)
      rw [← read, readNumber]
      · exact List.cons_ne_nil first rest
      · exact fun same => unsigned (List.cons.inj same).1
      · exact fun _ same => unsigned (List.cons.inj same).1

theorem le_of_digitsFrom {digits : List Char} {value number : Nat} (fits : value ≤ maxNumber)
    (read : digitsFrom value digits = some number) : number ≤ maxNumber := by
  induction digits generalizing value with
  | nil => exact Option.some.inj read ▸ fits
  | cons c rest ih =>
      rw [digitsFrom] at read
      dsimp only at read
      split_ifs at read with digit small
      exact ih small read

theorem le_of_readNumber {text : List Char} {number : Nat} (read : readNumber text = some number) :
    number ≤ maxNumber := by
  unfold readNumber at read
  split at read
  · cases read
  · cases read
  · exact le_of_digitsFrom (Nat.zero_le _) read
  · exact le_of_digitsFrom (Nat.zero_le _) read

end CallContext.Text
