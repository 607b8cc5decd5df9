import CallContext.Text.Decimal
import CallContext.Toml

/-!
Reading the values and keys of TOML. A reader yields what it has read and what is left of the text.
-/

namespace CallContext.Toml

namespace Reader

abbrev Reading (α : Type) := List Char → Option (α × List Char)

def isSpace (c : Char) : Bool :=
  c == ' ' || c == '\t'

def skip (text : List Char) : List Char :=
  text.dropWhile isSpace

def lineBreak? : List Char → Option (List Char)
  | '\n' :: rest => some rest
  | '\r' :: '\n' :: rest => some rest
  | _ => none

def isVisible (c : Char) : Bool :=
  c == '\t' || (0x20 ≤ c.toNat && c.toNat != 0x7f)

def skipComment : List Char → List Char
  | '#' :: rest => rest.dropWhile isVisible
  | text => text

def skipLines : Nat → List Char → List Char
  | 0, text => text
  | limit + 1, text =>
    let rest := skipComment (skip text)
    match lineBreak? rest with
    | some after => skipLines limit after
    | none => rest

def endLine (text : List Char) : Option (List Char) :=
  let rest := skipComment (skip text)
  if rest.isEmpty then some [] else lineBreak? rest

def hexDigit (c : Char) : Option Nat :=
  if c.isDigit then some (c.toNat - '0'.toNat)
  else if 'a' ≤ c && c ≤ 'f' then some (c.toNat - 'a'.toNat + 10)
  else if 'A' ≤ c && c ≤ 'F' then some (c.toNat - 'A'.toNat + 10)
  else none

def codePoint (count : Nat) (text : List Char) : Option (Char × List Char) := do
  let digits ← (text.take count).mapM hexDigit
  let code := digits.foldl (fun value digit => 16 * value + digit) 0
  if digits.length < count || !decide code.isValidChar then none
  return (Char.ofNat code, text.drop count)

def escaped : List Char → Option (Char × List Char)
  | 'b' :: rest => some ('\x08', rest)
  | 't' :: rest => some ('\t', rest)
  | 'n' :: rest => some ('\n', rest)
  | 'f' :: rest => some ('\x0c', rest)
  | 'r' :: rest => some ('\r', rest)
  | '"' :: rest => some ('"', rest)
  | '\\' :: rest => some ('\\', rest)
  | 'u' :: rest => codePoint 4 rest
  | 'U' :: rest => codePoint 8 rest
  | _ => none

/-- The rest of a string between double quotes, after the text that has been read, last first. -/
def basicString : Nat → List Char → List Char → Option (String × List Char)
  | 0, _, _ => none
  | limit + 1, before, text => match text with
    | [] => none
    | '"' :: rest => some (String.ofList before.reverse, rest)
    | '\\' :: rest => do
      let (c, after) ← escaped rest
      basicString limit (c :: before) after
    | c :: rest => if isVisible c then basicString limit (c :: before) rest else none

def literalString (text : List Char) : Option (String × List Char) :=
  let body := text.takeWhile fun c => isVisible c && c != '\''
  match text.drop body.length with
  | '\'' :: rest => some (String.ofList body, rest)
  | _ => none

/-- Three closing quotes, and up to two quotes of the string before them, which are given last. -/
def closing (quote : Char) (before text : List Char) : Option (String × List Char) :=
  let count := (text.takeWhile (· == quote)).length
  if 3 ≤ count && count ≤ 5 then
    some (String.ofList (before.reverse ++ List.replicate (count - 3) quote), text.drop count)
  else none

def joinLines (text : List Char) : Option (List Char) :=
  (lineBreak? (skip text)).map fun rest =>
    rest.dropWhile fun c => isSpace c || c == '\n' || c == '\r'

/-- The rest of a string between three quotes; only in one between double quotes backslashes have a
meaning. -/
def multilineString (quote : Char) : Nat → List Char → List Char → Option (String × List Char)
  | 0, _, _ => none
  | limit + 1, before, text => match text with
    | [] => none
    | c :: rest =>
      if c == quote then
        match closing quote before text with
        | some found => some found
        | none =>
          if (text.takeWhile (· == quote)).length < 3 then
            multilineString quote limit (c :: before) rest
          else none
      else if c == '\\' && quote == '"' then
        match joinLines rest with
        | some after => multilineString quote limit before after
        | none => do
          let (found, after) ← escaped rest
          multilineString quote limit (found :: before) after
      else match lineBreak? text with
        | some after => multilineString quote limit ('\n' :: before) after
        | none =>
          if isVisible c then multilineString quote limit (c :: before) rest else none

def dropFirstBreak (text : List Char) : List Char :=
  (lineBreak? text).getD text

def string (text : List Char) : Option (String × List Char) :=
  let limit := text.length + 1
  match text with
  | '"' :: '"' :: '"' :: rest => multilineString '"' limit [] (dropFirstBreak rest)
  | '\'' :: '\'' :: '\'' :: rest => multilineString '\'' limit [] (dropFirstBreak rest)
  | '"' :: rest => basicString limit [] rest
  | '\'' :: rest => literalString rest
  | _ => none

def isBare (c : Char) : Bool :=
  c.isAlphanum || c == '_' || c == '-'

def simpleKey (text : List Char) : Option (String × List Char) :=
  match text with
  | '"' :: rest => basicString (text.length + 1) [] rest
  | '\'' :: rest => literalString rest
  | _ =>
    let word := text.takeWhile isBare
    if word.isEmpty then none else some (String.ofList word, text.drop word.length)

def key : Nat → List Char → Option (List String × List Char)
  | 0, _ => none
  | limit + 1, text => do
    let (first, rest) ← simpleKey (skip text)
    match skip rest with
    | '.' :: after =>
      let (others, remaining) ← key limit after
      return (first :: others, remaining)
    | remaining => return ([first], remaining)

def plainDigits (isDigit : Char → Bool) : List Char → Option (List Char)
  | [] => none
  | [c] => if isDigit c then some [c] else none
  | c :: '_' :: rest => if isDigit c then (plainDigits isDigit rest).map (c :: ·) else none
  | c :: rest => if isDigit c then (plainDigits isDigit rest).map (c :: ·) else none

def digitsValue (base : Nat) (digits : List Char) : Nat :=
  digits.foldl (fun value c => base * value + (hexDigit c).getD 0) 0

def bounded (value : Int) : Option Toml :=
  if -(Text.signedBound : Int) ≤ value && value < Text.signedBound then some (.integer value) else none

def basedInteger (base : Nat) (isDigit : Char → Bool) (text : List Char) : Option Toml :=
  (plainDigits isDigit text).bind fun digits => bounded (digitsValue base digits)

def wholeDigits (text : List Char) : Option (List Char) :=
  (plainDigits Char.isDigit text).filter fun digits =>
    digits.length == 1 || digits.head? != some '0'

def decimalInteger (text : List Char) : Option Toml :=
  let (negative, magnitude) := Text.Decimal.splitSign text
  (wholeDigits magnitude).bind fun digits =>
    let value := digitsValue 10 digits
    bounded (if negative then -(value : Int) else value)

def splitWhere (condition : Char → Bool) (text : List Char) : List Char × Option (List Char) :=
  let before := text.takeWhile (!condition ·)
  match text.drop before.length with
  | [] => (before, none)
  | _ :: after => (before, some after)

def float (text : List Char) : Option Toml :=
  let (_, magnitude) := Text.Decimal.splitSign text
  if magnitude == "inf".toList || magnitude == "nan".toList then
    (Text.Decimal.read? text).map .float
  else
    let (mantissa, exponent) := splitWhere (fun c => c == 'e' || c == 'E') magnitude
    let (whole, fraction) := splitWhere (· == '.') mantissa
    let sound := (wholeDigits whole).isSome && (exponent.isSome || fraction.isSome) &&
      fraction.all (fun digits => (plainDigits Char.isDigit digits).isSome) &&
      exponent.all fun digits =>
        (plainDigits Char.isDigit (Text.Decimal.splitSign digits).2).isSome
    if sound then (Text.Decimal.read? (text.filter (· != '_'))).map .float else none

def fixedDigits (count : Nat) (text : List Char) : Option Nat :=
  if text.length == count && text.all Char.isDigit then some (digitsValue 10 text) else none

def daysIn (year month : Nat) : Nat :=
  if month == 2 then
    if year % 4 == 0 && (year % 100 != 0 || year % 400 == 0) then 29 else 28
  else if [4, 6, 9, 11].contains month then 30
  else 31

def isDate (text : List Char) : Bool :=
  match fixedDigits 4 (text.take 4), text[4]?, fixedDigits 2 ((text.drop 5).take 2), text[7]?,
    fixedDigits 2 (text.drop 8) with
  | some year, some '-', some month, some '-', some day =>
    1 ≤ month && month ≤ 12 && 1 ≤ day && day ≤ daysIn year month
  | _, _, _, _, _ => false

def isClock (text : List Char) : Bool :=
  match fixedDigits 2 (text.take 2), text[2]?, fixedDigits 2 (text.drop 3) with
  | some hour, some ':', some minute => hour < 24 && minute < 60
  | _, _, _ => false

def isTime (text : List Char) : Bool :=
  let (whole, fraction) := splitWhere (· == '.') text
  isClock (whole.take 5) && whole[5]? == some ':' &&
    (fixedDigits 2 (whole.drop 6)).any (· ≤ 60) &&
    fraction.all fun digits => !digits.isEmpty && digits.all Char.isDigit

def isTimeWithOffset (text : List Char) : Bool :=
  let (time, offset) := splitWhere (fun c => c == 'Z' || c == 'z' || c == '+' || c == '-') text
  isTime time && match offset with
    | none => true
    | some [] => text.getLast? == some 'Z' || text.getLast? == some 'z'
    | some clock => text[time.length]?.any (fun c => c == '+' || c == '-') && isClock clock

def moment (text : List Char) : Option Toml :=
  let both := isDate (text.take 10) && isTimeWithOffset (text.drop 11) &&
    text[10]?.any fun c => c == 'T' || c == 't' || c == ' '
  if isDate text || isTime text || both then
    some (.moment (String.ofList (text.map fun c =>
      if c == 't' || c == ' ' then 'T' else if c == 'z' then 'Z' else c)))
  else none

/-- The word at the beginning of a text. A date and a time with a space between them are one word. -/
def word (text : List Char) : List Char :=
  let isPart := fun c => isBare c || c == '.' || c == ':' || c == '+'
  let first := text.takeWhile isPart
  match text.drop first.length with
  | ' ' :: rest =>
    if isDate first && rest.head?.any Char.isDigit then first ++ ' ' :: rest.takeWhile isPart
    else first
  | _ => first

def scalar (text : List Char) : Option (Toml × List Char) :=
  let found := word text
  let value := match found with
    | '0' :: 'x' :: digits => basedInteger 16 (fun c => (hexDigit c).isSome) digits
    | '0' :: 'o' :: digits => basedInteger 8 (fun c => '0' ≤ c && c ≤ '7') digits
    | '0' :: 'b' :: digits => basedInteger 2 (fun c => c == '0' || c == '1') digits
    | _ =>
      if found == "true".toList then some (.boolean true)
      else if found == "false".toList then some (.boolean false)
      else decimalInteger found <|> float found <|> moment found
  value.map fun value => (value, text.drop found.length)

end Reader

end CallContext.Toml
