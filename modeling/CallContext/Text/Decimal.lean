import CallContext.Text.Numeral

/-!
Decimal notation of floating-point numbers of 64 bits. A number is written with the fewest digits that
read back as it, the nearest such digits to it, and without an exponent.
-/

namespace CallContext.Text.Decimal

/-- A positive finite number as a multiple of a power of two, and whether the numbers below it are
half as far apart as those above. -/
structure Binary where
  significand : Nat
  exponent : Int
  narrowBelow : Bool
  deriving DecidableEq, Repr

inductive Value where
  | nan
  | infinity
  | zero
  | finite (binary : Binary)
  deriving DecidableEq, Repr

def powerOfTwo (exponent : Nat) : Nat :=
  Nat.pow 2 exponent

def powerOfTen (exponent : Nat) : Nat :=
  Nat.pow 10 exponent

def decode (number : Float) : Bool × Value :=
  let bits := number.toBits.toNat
  let negative := bits / powerOfTwo 63 == 1
  let exponent : Nat := bits / powerOfTwo 52 % powerOfTwo 11
  let fraction : Nat := bits % powerOfTwo 52
  let value :=
    if exponent == 2047 then if fraction == 0 then Value.infinity else .nan
    else if exponent == 0 then
      if fraction == 0 then .zero else .finite ⟨fraction, -1074, false⟩
    else .finite ⟨powerOfTwo 52 + fraction, Int.ofNat exponent - 1075, fraction == 0 && exponent > 1⟩
  (negative, value)

/-- A positive number as a fraction, with the ends of the interval of the numbers that round to it; all
three over one denominator. -/
structure Interval where
  low : Nat
  value : Nat
  high : Nat
  denominator : Nat
  closed : Bool

def Binary.interval (number : Binary) : Interval :=
  let scale := powerOfTwo number.exponent.toNat
  { low := (4 * number.significand - if number.narrowBelow then 1 else 2) * scale
    value := 4 * number.significand * scale
    high := (4 * number.significand + 2) * scale
    denominator := 4 * powerOfTwo (-number.exponent).toNat
    closed := number.significand % 2 == 0 }

structure Digits where
  significand : Nat
  exponent : Int
  deriving DecidableEq, Repr

def comparedTo (test : Nat → Nat → Bool) (a b : Nat) (digits : Digits) : Bool :=
  test (a * powerOfTen (-digits.exponent).toNat)
    (digits.significand * powerOfTen digits.exponent.toNat * b)

def Interval.holds (interval : Interval) (digits : Digits) : Bool :=
  let test : Nat → Nat → Bool := if interval.closed then (· ≤ ·) else (· < ·)
  comparedTo test interval.low interval.denominator digits &&
    comparedTo (fun a b => test b a) interval.high interval.denominator digits

/-- The decimal numbers next to the value, at or below it and above it, among the multiples of a power
of ten. -/
def Interval.neighbours (interval : Interval) (exponent : Int) : Digits × Digits :=
  let below := interval.value * powerOfTen (-exponent).toNat /
    (interval.denominator * powerOfTen exponent.toNat)
  (⟨below, exponent⟩, ⟨below + 1, exponent⟩)

def Interval.nearBelow (interval : Interval) (below : Digits) : Bool :=
  comparedTo (· ≤ ·) (2 * interval.value) interval.denominator
    ⟨2 * below.significand + 1, below.exponent⟩

def Interval.hit (interval : Interval) (exponent : Int) : Option Digits :=
  let (below, above) := interval.neighbours exponent
  match interval.holds below, interval.holds above with
  | true, true => some (if interval.nearBelow below then below else above)
  | true, false => some below
  | false, true => some above
  | false, false => none

def Interval.magnitude (interval : Interval) : Int :=
  let whole := interval.value / interval.denominator
  if whole > 0 then (toString whole).length
  else ((toString (powerOfTen 400 * interval.value / interval.denominator)).length : Int) - 400

/-- The decimal number with the fewest digits in the interval, tried from the given number of digits
on. -/
def Interval.shortest (interval : Interval) : Nat → Int → Option Digits
  | 0, _ => none
  | more + 1, exponent => match interval.hit exponent with
    | some digits => some digits
    | none => interval.shortest more (exponent - 1)

def Digits.positional (digits : Digits) : String :=
  if 0 ≤ digits.exponent then toString (digits.significand * powerOfTen digits.exponent.toNat)
  else
    let places := (-digits.exponent).toNat
    let scale := powerOfTen places
    let fraction := toString (digits.significand % scale)
    toString (digits.significand / scale) ++ "." ++
      String.ofList (List.replicate (places - fraction.length) '0') ++ fraction

def write (number : Float) : String :=
  let (negative, value) := decode number
  let sign := if negative then "-" else ""
  match value with
  | .nan => "NaN"
  | .infinity => sign ++ "inf"
  | .zero => sign ++ "0"
  | .finite binary =>
    let interval := binary.interval
    -- Seventeen digits tell every number from its neighbours.
    match interval.shortest 18 interval.magnitude with
    | some digits => sign ++ digits.positional
    | none => sign ++ "0"

/-- The nearest whole number, a half going up, within the numbers from zero that 64 bits hold. -/
def toNumber (number : Float) : Nat :=
  match decode number with
  | (_, .nan) => 0
  | (_, .zero) => 0
  | (true, _) => 0
  | (false, .infinity) => maxNumber
  | (false, .finite binary) =>
    let interval := binary.interval
    min ((2 * interval.value + interval.denominator) / (2 * interval.denominator)) maxNumber

def digitsValue (digits : List Char) : Nat :=
  digits.foldl (fun value c => 10 * value + (c.toNat - '0'.toNat)) 0

def ofDigits (negative : Bool) (significand : Nat) (exponent : Int) : Float :=
  let magnitude := if significand == 0 then 0.0
    else if exponent > 400 then Float.ofScientific 1 false 400
    else Float.ofScientific significand (exponent < 0) exponent.natAbs
  if negative then -magnitude else magnitude

def splitSign : List Char → Bool × List Char
  | '-' :: rest => (true, rest)
  | '+' :: rest => (false, rest)
  | text => (false, text)

def exponent? : List Char → Option Int
  | [] => some 0
  | mark :: text =>
    let (negative, digits) := splitSign text
    if (mark == 'e' || mark == 'E') && !digits.isEmpty && digits.all Char.isDigit then
      some (if negative then -(digitsValue digits : Int) else digitsValue digits)
    else none

/-- Reads a floating-point number: a sign, digits with a point before, among or after them, and an
exponent; or a word for an infinite number or for none. -/
def read? (text : List Char) : Option Float :=
  let (negative, magnitude) := splitSign text
  let word := String.ofList (magnitude.map Char.toLower)
  if word == "inf" || word == "infinity" then some (if negative then -(1.0 / 0.0) else 1.0 / 0.0)
  else if word == "nan" then some (0.0 / 0.0)
  else
    let whole := magnitude.takeWhile Char.isDigit
    let (fraction, rest) := match magnitude.dropWhile Char.isDigit with
      | '.' :: after => (after.takeWhile Char.isDigit, after.dropWhile Char.isDigit)
      | after => ([], after)
    if whole.isEmpty && fraction.isEmpty then none
    else (exponent? rest).map fun exponent =>
      ofDigits negative (digitsValue (whole ++ fraction)) (exponent - fraction.length)

end CallContext.Text.Decimal
