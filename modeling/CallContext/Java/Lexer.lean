import CallContext.Text.Blank
import CallContext.Text.Word
import CallContext.Java.Token

/-!
Cutting Java source into tokens. Every character of the source is part of a token, of the gap before
one, or of the gap at the end. Where several tokens could begin, the longest is taken; only `>` is
always a token of its own, because in `List<List<T>>` each closes a list of type arguments.

Strings may hold expressions between `\{` and `}`, so the scanner keeps a stack of what it is inside.
-/

namespace CallContext.Java

inductive Frame where
  | content (block : Bool)
  /-- An expression inside a string, with the number of braces open in it. -/
  | expression (braces : Nat)
  deriving DecidableEq, Repr

namespace Lexer

def toCommentEnd : List Char → Option Nat
  | [] => none
  | '*' :: '/' :: _ => some 2
  | _ :: rest => (toCommentEnd rest).map (· + 1)

def commentLength : List Char → Nat
  | '/' :: '/' :: rest => 2 + (rest.takeWhile (· != '\n')).length
  | '/' :: '*' :: rest => match toCommentEnd rest with
    | some length => 2 + length
    | none => 0
  | _ => 0

def gapLength : List Char → Nat
  | [] => 0
  | c :: rest =>
    if Text.isBlank c then gapLength rest + 1
    else match commentLength (c :: rest) with
      | 0 => 0
      | more + 1 => gapLength (rest.drop more) + more + 1
termination_by source => source.length
decreasing_by
  · simp
  · simp only [List.length_drop, List.length_cons]; omega

/-- The length of digits in which underscores stand between runs of digits: one at a time, or several if
the flag says so. -/
def digitsLength (isDigit : Char → Bool) (several : Bool) (source : List Char) : Nat :=
  let run := (source.takeWhile isDigit).length
  if run = 0 then 0
  else
    let marks := ((source.drop run).takeWhile (· == '_')).length
    if marks = 1 ∨ several ∧ 1 < marks then
      match digitsLength isDigit several (source.drop (run + marks)) with
      | 0 => run
      | more => run + marks + more
    else run
termination_by source.length
decreasing_by
  have bound : run ≤ source.length := (List.takeWhile_prefix isDigit).length_le
  simp only [List.length_drop]
  omega

def isHexDigit (c : Char) : Bool :=
  c.isDigit || ('a' ≤ c && c ≤ 'f') || ('A' ≤ c && c ≤ 'F')

def decimalDigits (source : List Char) : Nat :=
  digitsLength Char.isDigit false source

def wholeLength : List Char → Nat
  | '0' :: _ => 1
  | c :: rest =>
    if c.isDigit then
      let mark := if rest.head? == some '_' then 1 else 0
      match digitsLength Char.isDigit true (rest.drop mark) with
      | 0 => 1
      | more => 1 + mark + more
    else 0
  | [] => 0

def suffixLength (letters : List Char) : List Char → Nat
  | c :: _ => if letters.contains c then 1 else 0
  | [] => 0

def integerSuffix : List Char := ['l', 'L']

def floatSuffix : List Char := ['f', 'F', 'd', 'D']

def exponentLength (marks : List Char) (digits : List Char → Nat) : List Char → Nat
  | mark :: rest =>
    if marks.contains mark then
      let sign := suffixLength ['+', '-'] rest
      match digits (rest.drop sign) with
      | 0 => 0
      | more => 1 + sign + more
    else 0
  | [] => 0

def withSuffix (letters source : List Char) (length : Nat) : Nat :=
  if length = 0 then 0 else length + suffixLength letters (source.drop length)

def markedLength (mark : List Char) (isDigit : Char → Bool) (source : List Char) : Nat :=
  match source with
  | '0' :: letter :: rest =>
    if mark.contains letter then
      match digitsLength isDigit false rest with
      | 0 => 0
      | more => withSuffix integerSuffix source (2 + more)
    else 0
  | _ => 0

def isOctalDigit (c : Char) : Bool := '0' ≤ c && c ≤ '7'

def octalLength : List Char → Nat
  | '0' :: rest => match digitsLength isOctalDigit false rest with
    | 0 => 0
    | more => withSuffix integerSuffix ('0' :: rest) (1 + more)
  | _ => 0

def pointLength (source : List Char) : Nat :=
  let whole := decimalDigits source
  match source.drop whole with
  | '.' :: rest =>
    let fraction := decimalDigits rest
    if whole + fraction = 0 then 0
    else
      let mantissa := whole + 1 + fraction
      let exponent := exponentLength ['e', 'E'] decimalDigits (source.drop mantissa)
      withSuffix floatSuffix source (mantissa + exponent)
  | _ => 0

def scaledLength (source : List Char) : Nat :=
  let whole := wholeLength source
  if whole = 0 then 0
  else
    let rest := source.drop whole
    match exponentLength ['e', 'E', 'p', 'P'] decimalDigits rest with
    | 0 => match suffixLength floatSuffix rest with
      | 0 => 0
      | more => whole + more
    | exponent => withSuffix floatSuffix source (whole + exponent)

def hexPointLength : List Char → Nat
  | '0' :: mark :: rest =>
    if mark == 'x' || mark == 'X' then
      let digits := digitsLength isHexDigit false
      let whole := digits rest
      let (point, fraction) := match rest.drop whole with
        | '.' :: after => (1, digits after)
        | _ => (0, 0)
      if whole + fraction = 0 then 0
      else
        let mantissa := whole + point + fraction
        let after := rest.drop mantissa
        match exponentLength ['e', 'E', 'p', 'P'] wholeLength after with
        | 0 => 2 + mantissa
        | exponent => 2 + mantissa + exponent + suffixLength floatSuffix (after.drop exponent)
    else 0
  | _ => 0

/-- The length of the number that a text begins with, the longest there is; zero if it begins with
none. -/
def numberLength (source : List Char) : Nat :=
  [withSuffix integerSuffix source (wholeLength source),
    markedLength ['x', 'X'] isHexDigit source,
    markedLength ['o', 'O'] isOctalDigit source,
    markedLength ['b', 'B'] (fun c => c == '0' || c == '1') source,
    octalLength source, pointLength source, scaledLength source, hexPointLength source].foldl max 0

def characterTail : Bool → List Char → Option Nat
  | _, [] => none
  | _, '\\' :: [] => none
  | _, '\\' :: _ :: rest => (characterTail true rest).map (· + 2)
  | begun, c :: rest =>
    if c == '\'' then (if begun then some 1 else none)
    else if c == '\n' then none
    else (characterTail true rest).map (· + 1)

def escapeLength : List Char → Nat
  | [] => 0
  | 'x' :: rest => if (rest.take 2).length == 2 && (rest.take 2).all isHexDigit then 3 else 0
  | 'u' :: '{' :: rest =>
    let digits := (rest.takeWhile isHexDigit).length
    match rest.drop digits with
    | '}' :: _ => if digits == 0 then 0 else digits + 3
    | _ => 0
  | 'u' :: rest => if (rest.take 4).length == 4 && (rest.take 4).all isHexDigit then 5 else 0
  | c :: rest =>
    if isOctalDigit c then 1 + ((rest.take 2).takeWhile isOctalDigit).length
    else 1

def longSymbols : List String :=
  ["@interface", "<<=", "...", "->", "::", "==", "!=", "<=", "<<", "&&", "&=", "||", "|=", "^=",
    "++", "+=", "--", "-=", "*=", "/=", "%="]

def shortSymbols : List Char :=
  ['(', ')', '\x7b', '\x7d', '[', ']', ';', ',', '.', '@', ':', '=', '!', '<', '>', '&', '|', '^', '+',
    '-', '*', '/', '%', '~', '?']

def symbolLength (source : List Char) : Nat :=
  match longSymbols.find? fun sign => sign.toList.isPrefixOf source with
  | some sign => sign.length
  | none => suffixLength shortSymbols source

/-- The stack after a sign: braces are counted inside an expression of a string, and the brace that
none opened ends the expression. -/
def afterSymbol (sign : Char) : List Frame → List Frame
  | .expression braces :: outer =>
    if sign == '\x7b' then .expression (braces + 1) :: outer
    else if sign == '\x7d' then
      match braces with
      | 0 => outer
      | fewer + 1 => .expression fewer :: outer
    else .expression braces :: outer
  | frames => frames

/-- A token at the beginning of a text: its kind, the number of characters after its first, and what
encloses the place after it. -/
structure Lexeme where
  kind : TokenKind
  more : Nat
  frames : List Frame

def hyphenated : List Char := "non-sealed".toList

def codeLexeme (frames : List Frame) (c : Char) (rest : List Char) : Lexeme :=
  if Text.isIdentifierStart c then
    if hyphenated.isPrefixOf (c :: rest) then ⟨.symbol, hyphenated.length - 1, frames⟩
    else ⟨.word, (rest.takeWhile Text.isIdentifierPart).length, frames⟩
  else if c == '"' then
    match rest with
    | '"' :: '"' :: _ => ⟨.quote, 2, .content true :: frames⟩
    | _ => ⟨.quote, 0, .content false :: frames⟩
  else if c == '\'' then
    match characterTail false rest with
    | some more => ⟨.literal, more, frames⟩
    | none => ⟨.unknown, 0, frames⟩
  else match numberLength (c :: rest) with
    | more + 1 => ⟨.literal, more, frames⟩
    | 0 => match symbolLength (c :: rest) with
      | more + 1 => ⟨.symbol, more, afterSymbol c frames⟩
      | 0 => ⟨.unknown, 0, frames⟩

def contentLexeme (block : Bool) (frames outer : List Frame) (c : Char) (rest : List Char) : Lexeme :=
  if c == '\\' then
    match rest with
    | '\x7b' :: _ => ⟨.interpolation, 1, .expression 0 :: frames⟩
    | [] => ⟨.unknown, 0, frames⟩
    | _ =>
      if block then ⟨.fragment, 1, frames⟩
      else match escapeLength rest with
        | 0 => ⟨.unknown, 0, frames⟩
        | more => ⟨.fragment, more, frames⟩
  else if c == '"' then
    if block then
      match rest with
      | '"' :: '"' :: _ => ⟨.quote, 2, outer⟩
      | _ => ⟨.fragment, 0, frames⟩
    else ⟨.quote, 0, outer⟩
  else ⟨.fragment, (rest.takeWhile fun d => d != '"' && d != '\\').length, frames⟩

def lexeme (frames : List Frame) (c : Char) (rest : List Char) : Lexeme :=
  match frames with
  | .content block :: outer => contentLexeme block frames outer c rest
  | _ => codeLexeme frames c rest

theorem contentLexeme_kind_ne_word (block : Bool) (frames outer : List Frame) (c : Char)
    (rest : List Char) : (contentLexeme block frames outer c rest).kind ≠ .word := by
  unfold contentLexeme
  repeat' split
  all_goals exact nofun

theorem codeLexeme_word {frames : List Frame} {c : Char} {rest : List Char}
    (word : (codeLexeme frames c rest).kind = .word) :
    Text.isIdentifierStart c ∧
      (codeLexeme frames c rest).more = (rest.takeWhile Text.isIdentifierPart).length := by
  unfold codeLexeme at word ⊢
  by_cases start : Text.isIdentifierStart c
  · by_cases hyphen : hyphenated.isPrefixOf (c :: rest)
    · simp [start, hyphen] at word
    · simp [start, hyphen]
  · -- No other token is a word.
    rw [if_neg start] at word
    repeat' split at word
    all_goals cases word

theorem isIdentifier_of_lexeme {frames : List Frame} {c : Char} {rest : List Char}
    (word : (lexeme frames c rest).kind = .word) :
    isIdentifier (String.ofList (c :: rest.take (lexeme frames c rest).more)) := by
  unfold lexeme at word ⊢
  split at word
  · exact absurd word (contentLexeme_kind_ne_word _ _ _ _ _)
  · obtain ⟨start, more⟩ := codeLexeme_word word
    have parts := List.prefix_iff_eq_take.mp (List.takeWhile_prefix Text.isIdentifierPart (l := rest))
    rw [more, ← parts, isIdentifier, String.toList_ofList]
    simp [start]

/-- The length of the gap before the next token: the content of a string has none. -/
def gapBefore (frames : List Frame) (source : List Char) : Nat :=
  match frames with
  | .content _ :: _ => 0
  | _ => gapLength source

def lineFeeds (text : List Char) : Nat :=
  text.count '\n'

def scan (frames : List Frame) (index line : Nat) (source : List Char) : List Token :=
  let gap := gapBefore frames source
  match shorter : source.drop gap with
  | [] => []
  | c :: rest =>
    let found := lexeme frames c rest
    let skipped := source.take gap
    let text := c :: rest.take found.more
    let first := line + lineFeeds skipped
    let last := first + lineFeeds text
    { kind := found.kind, text := String.ofList text, gap := String.ofList skipped, index,
      line := first, lastLine := last, proper := isIdentifier_of_lexeme } ::
      scan found.frames (index + 1) last (rest.drop found.more)
termination_by source.length
decreasing_by
  have := congrArg List.length shorter
  simp only [List.length_drop, List.length_cons] at this ⊢
  omega

def tokens (source : List Char) : List Token :=
  match source with
  | '\uFEFF' :: rest => scan [] 0 1 rest
  | _ => scan [] 0 1 source

end Lexer

end CallContext.Java
