import CallContext.Json

/-!
Reading JSON. Only JSON as the standard has it is accepted: no comments, no trailing commas, no
control characters in strings, and no escape that is half of a surrogate pair.
-/

namespace CallContext.Json

namespace Reader

def isSpace (c : Char) : Bool :=
  c == ' ' || c == '\n' || c == '\t' || c == '\r'

def skip (text : List Char) : List Char :=
  text.dropWhile isSpace

def hexDigit (c : Char) : Option Nat :=
  if c.isDigit then some (c.toNat - '0'.toNat)
  else if 'a' ≤ c && c ≤ 'f' then some (c.toNat - 'a'.toNat + 10)
  else if 'A' ≤ c && c ≤ 'F' then some (c.toNat - 'A'.toNat + 10)
  else none

def hexUnit (a b c d : Char) : Option Nat := do
  return (((← hexDigit a) * 16 + (← hexDigit b)) * 16 + (← hexDigit c)) * 16 + (← hexDigit d)

def escaped (letter : Char) : Option Char :=
  match letter with
  | '"' => some '"'
  | '\\' => some '\\'
  | '/' => some '/'
  | 'b' => some '\x08'
  | 'f' => some '\x0c'
  | 'n' => some '\n'
  | 'r' => some '\r'
  | 't' => some '\t'
  | _ => none

def stringBody : List Char → Option (List Char × List Char)
  | [] => none
  | '"' :: rest => some ([], rest)
  | '\\' :: 'u' :: a :: b :: c :: d :: rest => do
    let unit ← hexUnit a b c d
    if 0xd800 ≤ unit && unit < 0xdc00 then
      match rest with
      | '\\' :: 'u' :: e :: f :: g :: h :: after =>
        let low ← hexUnit e f g h
        if 0xdc00 ≤ low && low < 0xe000 then
          let (text, remaining) ← stringBody after
          let code := 0x10000 + (unit - 0xd800) * 0x400 + (low - 0xdc00)
          return (Char.ofNat code :: text, remaining)
        else none
      | _ => none
    else if 0xdc00 ≤ unit && unit < 0xe000 then none
    else
      let (text, remaining) ← stringBody rest
      return (Char.ofNat unit :: text, remaining)
  | '\\' :: letter :: rest => do
    let c ← escaped letter
    let (text, remaining) ← stringBody rest
    return (c :: text, remaining)
  | c :: rest =>
    if c.toNat < 0x20 || c == '\\' then none
    else do
      let (text, remaining) ← stringBody rest
      return (c :: text, remaining)

def digits (text : List Char) : Option (List Char × List Char) :=
  let found := text.takeWhile Char.isDigit
  if found.isEmpty then none else some (found, text.dropWhile Char.isDigit)

/-- The spelling of a number, and what follows it. A first zero is the only digit before the point. -/
def number (text : List Char) : Option (List Char × List Char) := do
  let (sign, afterSign) := match text with
    | '-' :: rest => (['-'], rest)
    | _ => ([], text)
  let (whole, afterWhole) ← digits afterSign
  if whole.length > 1 && whole.head? == some '0' then none
  let (fraction, afterFraction) ← match afterWhole with
    | '.' :: rest => (digits rest).map fun (found, after) => ('.' :: found, after)
    | _ => some ([], afterWhole)
  let (exponent, afterExponent) ← match afterFraction with
    | c :: rest =>
      if c == 'e' || c == 'E' then
        match rest with
        | s :: signed =>
          if s == '+' || s == '-' then
            (digits signed).map fun (found, after) => (c :: s :: found, after)
          else (digits rest).map fun (found, after) => (c :: found, after)
        | [] => none
      else some ([], afterFraction)
    | [] => some ([], [])
  return (sign ++ whole ++ fraction ++ exponent, afterExponent)

def items {α : Type} (close : Char) (item : List Char → Option (α × List Char)) :
    Nat → List Char → Option (List α × List Char)
  | 0, _ => none
  | limit + 1, text => do
    let (first, rest) ← item (skip text)
    match skip rest with
    | c :: after =>
      if c == close then some ([first], after)
      else if c == ',' then
        let (others, remaining) ← items close item limit after
        return (first :: others, remaining)
      else none
    | [] => none

def listOf {α : Type} (close : Char) (item : List Char → Option (α × List Char))
    (text : List Char) : Option (List α × List Char) :=
  match skip text with
  | c :: rest => if c == close then some ([], rest) else items close item (text.length + 1) text
  | [] => none

def member (value : List Char → Option (Json × List Char)) (text : List Char) :
    Option ((String × Json) × List Char) :=
  match text with
  | '"' :: rest => do
    let (name, afterName) ← stringBody rest
    match skip afterName with
    | ':' :: after =>
      let (found, remaining) ← value (skip after)
      return ((String.ofList name, found), remaining)
    | _ => none
  | _ => none

def after (word : String) (text : List Char) : Option (List Char) :=
  if word.toList.isPrefixOf text then some (text.drop word.length) else none

/-- A value at the beginning of a text, in which brackets nest at most as deep as the number says. -/
def value : Nat → List Char → Option (Json × List Char)
  | depth, text =>
    match text with
    | '"' :: rest => (stringBody rest).map fun (found, left) => (.string (String.ofList found), left)
    | '[' :: rest => match depth with
      | 0 => none
      | inner + 1 => (listOf ']' (value inner) rest).map fun (found, left) => (.array found, left)
    | '{' :: rest => match depth with
      | 0 => none
      | inner + 1 =>
        (listOf '}' (member (value inner)) rest).map fun (found, left) => (.object found, left)
    | 'n' :: _ => (after "null" text).map fun left => (.null, left)
    | 't' :: _ => (after "true" text).map fun left => (.bool true, left)
    | 'f' :: _ => (after "false" text).map fun left => (.bool false, left)
    | _ => (number text).map fun (found, left) => (.number (String.ofList found), left)

end Reader

def maxDepth : Nat := 127

def parse? (text : String) : Option Json :=
  match Reader.value maxDepth (Reader.skip text.toList) with
  | some (found, rest) => if (Reader.skip rest).isEmpty then some found else none
  | none => none

end CallContext.Json
