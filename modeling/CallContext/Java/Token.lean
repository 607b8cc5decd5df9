import CallContext.Java.Identifier

/-!
The tokens of Java source. A token keeps the blanks and comments before it, so that the text of a
stretch of source, comments included, can be put together from its tokens.
-/

namespace CallContext.Java

/-- What a token is, as far as its spelling decides it. Whether a word is a keyword or an identifier
depends on where it stands. -/
inductive TokenKind where
  | word
  | literal
  | quote
  | fragment
  /-- The mark `\{` that opens an expression inside a string. -/
  | interpolation
  | symbol
  | unknown
  deriving DecidableEq, Repr

structure Token where
  kind : TokenKind
  text : String
  gap : String
  index : Nat
  /-- The line on which the token begins, counted from one. -/
  line : Nat
  lastLine : Nat
  proper : kind = .word → isIdentifier text
  deriving DecidableEq, Repr

namespace Token

def isSymbol (token : Token) (text : String) : Bool :=
  token.kind == .symbol && token.text == text

def isWord (token : Token) (text : String) : Bool :=
  token.kind == .word && token.text == text

def spell : List Token → String
  | [] => ""
  | first :: rest => rest.foldl (fun text token => text ++ token.gap ++ token.text) first.text

end Token

end CallContext.Java
