import CallContext.Java.Syntax
import CallContext.Java.Parser.Basic

/-!
What the rules of the grammar share: the words that are reserved in one place or another, and the
parts of the grammar that contain each other. A rule takes the latter as a parameter, so that every
rule is an ordinary definition; the knot is tied where the whole grammar is built.
-/

namespace CallContext.Java

structure Stretch where
  tokens : List Token
  code : List Code

namespace Stretch

def empty : Stretch := ⟨[], []⟩

def single (token : Token) : Stretch := ⟨[token], []⟩

def concat (stretches : List Stretch) : Stretch :=
  ⟨stretches.flatMap (·.tokens), stretches.flatMap (·.code)⟩

def text (stretch : Stretch) : String :=
  Token.spell stretch.tokens

end Stretch

structure Marker where
  name : String
  stretch : Stretch

def Marker.codes (annotations : List Marker) : List Code :=
  annotations.flatMap (·.stretch.code)

/-- The parts of the grammar that contain each other. -/
structure Grammar where
  /-- More than the number of tokens, hence more than any repetition repeats. -/
  limit : Nat
  type : Parser Stretch
  marker : Parser Marker
  /-- An expression whose operators bind at least as tightly as the number says. Where the flag is
  false an arrow is not part of the expression. -/
  expression : Nat → Bool → Parser Code
  statement : Parser Code
  classBody : Parser (List Member)

def primitiveTypes : List String :=
  ["byte", "short", "int", "long", "char", "float", "double", "boolean", "void"]

def modifierWords : List String :=
  ["public", "protected", "private", "abstract", "static", "final", "strictfp", "default",
    "synchronized", "native", "transient", "volatile", "sealed"]

/-- Words that may not continue a dotted type, since after a dot they mean something else. -/
def selectorWords : List String :=
  ["class", "this", "super", "new"]

def expressionWords : List String :=
  ["new", "this", "super", "true", "false", "null", "switch"]

/-- Words that are identifiers in expressions but cannot name a type there. -/
def softWords : List String :=
  ["open", "module", "record", "with", "sealed", "yield"]

namespace Token

def isOneOf (words : List String) (token : Token) : Bool :=
  token.kind == .word && words.contains token.text

def isModifier (token : Token) : Bool :=
  token.isOneOf modifierWords || token.isSymbol "non-sealed" || token.isSymbol "@"

end Token

end CallContext.Java
