import CallContext.Java.Lexer
import CallContext.Java.Parser.Statement

/-!
Reading Java source. The grammar is built in layers: the rules of one layer read what they contain by
means of the layer below, and there are more layers than any nesting of the tokens can use.

A text that is not Java has one place that an error names. A bracket that closes one before its
content is complete, or a token before which one other token would put things right, blames the end
of the token before it; a text that is never closed blames its first token; everything else blames the
token that could not be accepted.
-/

namespace CallContext.Java

def Grammar.ofDepth (limit : Nat) : Nat → Grammar
  | 0 => ⟨limit, Parser.fail, Parser.fail, fun _ _ => Parser.fail, Parser.fail, Parser.fail⟩
  | depth + 1 =>
    { limit
      type := fun tokens => Parser.typeRule (ofDepth limit depth) tokens
      marker := fun tokens => Parser.annotationRule (ofDepth limit depth) tokens
      expression := fun strength arrow tokens =>
        Parser.expressionRule (ofDepth limit depth) strength arrow tokens
      statement := fun tokens => Parser.statementRule (ofDepth limit depth) tokens
      classBody := fun tokens => Parser.classBodyRule (ofDepth limit depth) tokens }

/-- The grammar for texts with the given number of tokens: a token is entered through at most five
layers. -/
def Grammar.ofSize (size : Nat) : Grammar :=
  ofDepth (size + 1) (5 * (size + 1))

namespace Parser

def fileItems (grammar : Grammar) : Nat → Parser (List Item)
  | 0 => fail
  | limit + 1 => fun tokens => match tokens with
    | [] => .success [] []
    | _ => (do return (← fileItem grammar) :: (← fileItems grammar limit)) tokens

def file (tokens : List Token) : Outcome (List Item) :=
  let grammar := Grammar.ofSize tokens.length
  fileItems grammar grammar.limit tokens

end Parser

namespace Misfit

def openBrackets (tokens : List Token) : List String :=
  tokens.foldl (fun opened token =>
    if token.kind != .symbol then opened
    else if ["(", "[", "\x7b"].contains token.text then token.text :: opened
    else match opener token.text with
      | some bracket => match opened.dropWhile (· != bracket) with
        | _ :: outer => outer
        | [] => opened
      | none => opened) []
where
  opener (closing : String) : Option String :=
    if closing == ")" then some "("
    else if closing == "]" then some "["
    else if closing == "\x7d" then some "\x7b"
    else none

def missing (kind : TokenKind) (text : String) (proper : kind = .word → isIdentifier text) : Token :=
  { kind, text, gap := " ", index := 0, line := 0, lastLine := 0, proper }

def missingSymbol (text : String) : Token :=
  missing .symbol text nofun

def candidates : List Token :=
  [missingSymbol ";", missingSymbol ")", missingSymbol "]", missingSymbol "\x7d",
    missing .word "x" (by decide), missingSymbol "(", missingSymbol "\x7b"]

def renumber (tokens : List Token) : List Token :=
  tokens.mapIdx fun index token => { token with index }

/-- Whether one more token before the rest lets a parser go past the first token of the rest. -/
def mendable (before rest : List Token) : Bool :=
  candidates.any fun candidate =>
    match Parser.file (renumber (before ++ candidate :: rest)) with
    | .success .. => true
    | .failure left => left.length < rest.length

/-- The line of the error in a text whose tokens could be read up to the rest. -/
def line (tokens rest : List Token) : Nat :=
  match rest with
  | [] => (tokens.head?.map (·.line)).getD 1
  | wrong :: _ =>
    let before := tokens.take wrong.index
    match before.getLast? with
    | none => wrong.line
    | some previous =>
      let early := match if wrong.kind == .symbol then openBrackets.opener wrong.text else none with
        | some bracket => (openBrackets before).contains bracket
        | none => mendable before rest
      if early then previous.lastLine else wrong.line

end Misfit

def parseSource (source : String) : Except Nat (List Item) :=
  let tokens := Lexer.tokens source.toList
  match Parser.file tokens with
  | .success items _ => .ok items
  | .failure rest => .error (Misfit.line tokens rest)

end CallContext.Java
