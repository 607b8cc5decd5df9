/-!
Unsigned numbers of 64 bits in decimal notation: an optional plus sign and at least one ASCII digit.
-/

namespace CallContext.Text

def maxNumber : Nat := 0xffffffffffffffff

/-- The numbers that 64 bits hold with a sign lie below this bound, and not below its negative. -/
def signedBound : Nat := 0x8000000000000000

/-- The value of a run of ASCII digits that continues a number; `none` if another character occurs
or the value does not fit. -/
def digitsFrom (value : Nat) : List Char → Option Nat
  | [] => some value
  | c :: rest =>
    if c.isDigit then
      let next := 10 * value + (c.toNat - '0'.toNat)
      if next ≤ maxNumber then digitsFrom next rest else none
    else none

def readNumber (text : List Char) : Option Nat :=
  match text with
  | [] => none
  | ['+'] => none
  | '+' :: digits => digitsFrom 0 digits
  | digits => digitsFrom 0 digits

end CallContext.Text
