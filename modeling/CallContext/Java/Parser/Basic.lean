import CallContext.Java.Token

/-!
Parsers over tokens. A parser either succeeds with a value and the tokens that are left, or fails at
the token that it could not accept; of two failures the later one tells where the text stops being
what was expected.
-/

namespace CallContext.Java

inductive Outcome (α : Type) where
  | success (value : α) (rest : List Token)
  | failure (rest : List Token)

def Parser (α : Type) : Type := List Token → Outcome α

/-- The later of two places in the same tokens. -/
def later : List Token → List Token → List Token
  | [], _ | _, [] => []
  | a :: left, b :: right => if a.index < b.index then b :: right else a :: left

namespace Parser

variable {α β : Type}

protected def pure (value : α) : Parser α :=
  fun tokens => .success value tokens

protected def bind (first : Parser α) (next : α → Parser β) : Parser β :=
  fun tokens => match first tokens with
    | .success value rest => next value rest
    | .failure rest => .failure rest

instance : Monad Parser where
  pure := Parser.pure
  bind := Parser.bind

def fail : Parser α :=
  fun tokens => .failure tokens

def orElse (first second : Parser α) : Parser α :=
  fun tokens => match first tokens with
    | .success value rest => .success value rest
    | .failure place => match second tokens with
      | .success value rest => .success value rest
      | .failure other => .failure (later place other)

def ahead : Parser (List Token) :=
  fun tokens => .success tokens tokens

def nextIs (condition : Token → Bool) : Parser Bool :=
  fun tokens => .success (tokens.head?.any condition) tokens

def nextSymbol (text : String) : Parser Bool :=
  nextIs (·.isSymbol text)

def nextWord (text : String) : Parser Bool :=
  nextIs (·.isWord text)

def token (condition : Token → Bool) : Parser Token
  | [] => .failure []
  | first :: rest => if condition first then .success first rest else .failure (first :: rest)

def symbol (text : String) : Parser Token :=
  token (·.isSymbol text)

def keyword (text : String) : Parser Token :=
  token (·.isWord text)

def word : Parser Token :=
  token (·.kind == .word)

def identifier : Parser Identifier
  | [] => .failure []
  | first :: rest =>
    if spelled : first.kind = .word then .success ⟨first.text, first.proper spelled⟩ rest
    else .failure (first :: rest)

def optionalSymbol (text : String) : Parser Bool := do
  if ← nextSymbol text then
    let _ ← symbol text
    return true
  return false

def optionalWord (text : String) : Parser Bool := do
  if ← nextWord text then
    let _ ← keyword text
    return true
  return false

def whileNext (condition : Token → Bool) (one : Parser α) : Nat → Parser (List α)
  | 0 => pure []
  | limit + 1 => do
    if ← nextIs condition then
      let first ← one
      let rest ← whileNext condition one limit
      return first :: rest
    return []

/-- Reads things up to a token that satisfies a condition, which is left; fails if there is none. -/
def untilNext (condition : Token → Bool) (one : Parser α) : Nat → Parser (List α)
  | 0 => fail
  | limit + 1 => do
    if ← nextIs condition then
      return []
    let first ← one
    let rest ← untilNext condition one limit
    return first :: rest

def separated (sign : String) (limit : Nat) (one : Parser α) : Parser (List α) := do
  let first ← one
  let rest ← whileNext (·.isSymbol sign) (do let _ ← symbol sign; one) limit
  return first :: rest

def listUntil (close : String) (limit : Nat) (one : Parser α) : Parser (List α) := do
  if ← optionalSymbol close then
    return []
  let items ← separated "," limit one
  let _ ← symbol close
  return items

end Parser

end CallContext.Java
