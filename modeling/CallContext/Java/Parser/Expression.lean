import CallContext.Java.Parser.Type

/-!
The rules for expressions. An expression is an operand followed by operators with their right
operands; how tightly an operator binds is a number, larger for tighter.
-/

namespace CallContext.Java.Parser

def conditionalStrength : Nat := 3

def testStrength : Nat := 10

/-- How tightly a sign after its operand binds; a cast reaches as far as those. -/
def postfixStrength : Nat := 15

def operandStrength : Nat := 16

def infixStrength (operator : String) : Option Nat :=
  if operator == "||" then some 4
  else if operator == "&&" then some 5
  else if operator == "|" then some 6
  else if operator == "^" then some 7
  else if operator == "&" then some 8
  else if ["==", "!="].contains operator then some 9
  else if ["<", ">", "<=", ">="].contains operator then some 10
  else if ["<<", ">>", ">>>"].contains operator then some 11
  else if ["+", "-"].contains operator then some 12
  else if ["*", "/", "%"].contains operator then some 13
  else none

def assignmentSigns : List String :=
  ["=", "+=", "-=", "*=", "/=", "&=", "|=", "^=", "%=", "<<=", ">>=", ">>>="]

/-- The sign at a place with the number of its tokens: closing angle brackets and an equals sign
with nothing between them are one sign. -/
def signAhead : List Token → String × Nat
  | first :: rest =>
    if first.kind != .symbol then ("", 0)
    else if first.text == ">" then joined ">" 1 rest
    else (first.text, 1)
  | [] => ("", 0)
where
  joined (sign : String) (count : Nat) : List Token → String × Nat
    | next :: rest =>
      if next.kind == .symbol && next.gap.isEmpty then
        if next.text == ">" && count < 3 then joined (sign ++ ">") (count + 1) rest
        else if next.text == "=" then (sign ++ "=", count + 1)
        else (sign, count)
      else (sign, count)
    | [] => (sign, count)

def skip (count : Nat) : Parser Unit :=
  fun tokens => .success () (tokens.drop count)

def argumentList (grammar : Grammar) : Parser (List Code) := do
  let _ ← symbol "("
  listUntil ")" grammar.limit (grammar.expression 0 true)

def condition (grammar : Grammar) : Parser Code := do
  let _ ← symbol "("
  let inner ← grammar.expression 0 true
  let _ ← symbol ")"
  return inner

def stringParts (grammar : Grammar) : Parser (List Code) := do
  let parts ← untilNext (·.kind == .quote) (do
    if ← nextIs (·.kind == .interpolation) then
      let _ ← token (·.kind == .interpolation)
      let inner ← grammar.expression 0 true
      let _ ← symbol "\x7d"
      return [inner]
    else
      let _ ← token (·.kind == .fragment)
      return []) grammar.limit
  return parts.flatten

def stringLiteral (grammar : Grammar) : Parser Code := do
  let _ ← token (·.kind == .quote)
  let parts ← stringParts grammar
  let _ ← token (·.kind == .quote)
  return .other parts

/-- Whether a sign that begins a type's own notation follows a dotted name: type arguments or empty
square brackets. -/
def typeNotationAhead : List Token → Bool
  | first :: rest =>
    if first.kind == .word || first.isSymbol "." then typeNotationAhead rest
    else first.isSymbol "<" ||
      (first.isSymbol "[" && rest.head?.any (·.isSymbol "]"))
  | [] => false

def arrowAfterParentheses : Nat → List Token → Bool
  | _, [] => false
  | depth, first :: rest =>
    if first.isSymbol "(" then arrowAfterParentheses (depth + 1) rest
    else if first.isSymbol ")" then
      if depth ≤ 1 then rest.head?.any (·.isSymbol "->") else arrowAfterParentheses (depth - 1) rest
    else arrowAfterParentheses depth rest

def referenceTail (grammar : Grammar) : Parser (List Code) := do
  let _ ← symbol "::"
  let arguments ← optionalTypeArguments grammar
  let _ ← word
  return arguments.code

def typeSelection (grammar : Grammar) : Parser Code := do
  let type ← grammar.type
  if ← optionalSymbol "." then
    let _ ← keyword "class"
    return .other type.code
  return .other (type.code ++ (← referenceTail grammar))

def arrayInitializer (grammar : Grammar) : Nat → Parser Code
  | 0 => fail
  | limit + 1 => do
    let _ ← symbol "\x7b"
    if ← optionalSymbol "," then
      let _ ← symbol "\x7d"
      return .other []
    let values ← untilNext (·.isSymbol "\x7d") (do
      let value ←
        if ← nextSymbol "\x7b" then arrayInitializer grammar limit
        else grammar.expression 0 true
      if !(← nextSymbol "\x7d") then
        let _ ← symbol ","
      return value) grammar.limit
    let _ ← symbol "\x7d"
    return .other values

def lengths (grammar : Grammar) : Nat → Parser (List Code)
  | 0 => pure []
  | limit + 1 => do
    if ← nextBrackets then
      return []
    if ← optionalSymbol "[" then
      let length ← grammar.expression 0 true
      let _ ← symbol "]"
      return length :: (← lengths grammar limit)
    return []

def creation (grammar : Grammar) (outer : List Code) : Parser Code := do
  let _ ← keyword "new"
  let before ← annotationStretch grammar
  let arguments ← optionalTypeArguments grammar
  let between ← annotationStretch grammar
  let type ← simpleType grammar
  let written := outer ++ before.code ++ arguments.code ++ between.code ++ type.code
  if ← nextSymbol "(" then
    let values ← argumentList grammar
    if ← nextSymbol "\x7b" then
      let members ← grammar.classBody
      return .creation type.text (written ++ values ++ Member.codes members)
    return .creation type.text (written ++ values)
  if ← nextBrackets then
    let empty ← dimensions grammar grammar.limit
    let values ← arrayInitializer grammar grammar.limit
    return .other (written ++ empty.code ++ [values])
  -- Arguments or an array without lengths would have ended above.
  let after ← annotationStretch grammar
  if !(← nextSymbol "[") then
    let _ ← symbol "("
  let sizes ← lengths grammar grammar.limit
  let empty ← dimensions grammar grammar.limit
  return .other (written ++ after.code ++ sizes ++ empty.code)

def memberTail (grammar : Grammar) (object : Code) (typeArguments : List Code) (line : Nat)
    (name : Identifier) : Parser Code := do
  if ← nextSymbol "(" then
    return .call object typeArguments name.text (← argumentList grammar) line
  return .field object name

def selection (grammar : Grammar) (object : Code) (line : Nat) : Parser (Code × Bool) := do
  let _ ← symbol "."
  if ← nextWord "new" then
    return (← creation grammar [object], false)
  if ← nextWord "class" then
    let _ ← keyword "class"
    return (.other [object], false)
  if ← nextWord "this" then
    let _ ← keyword "this"
    return (.field object .this, true)
  if ← nextIs (·.kind == .quote) then
    return (.other [object, ← stringLiteral grammar], false)
  if ← optionalWord "super" then
    let _ ← symbol "."
  let arguments ← optionalTypeArguments grammar
  let name ← identifier
  if !arguments.tokens.isEmpty && !(← nextSymbol "(") then
    let _ ← symbol "("
  let selected ← memberTail grammar object arguments.code line name
  return (selected, !(selected matches .call ..))

/-- Whether the call of the superclass constructor of an outer object follows the object. It is no
expression, and only a constructor may begin with it. -/
def superCallAhead : List Token → Bool
  | dot :: word :: parenthesis :: _ =>
    dot.isSymbol "." && word.isWord "super" && parenthesis.isSymbol "("
  | _ => false

/-- What follows an operand without an operator between: selections, indices and method references.
The flag tells whether the operand can be assigned to. -/
def suffixes (grammar : Grammar) (line : Nat) : Nat → Code × Bool → Parser (Code × Bool)
  | 0, operand => pure operand
  | limit + 1, (operand, assignable) => do
    let tokens ← ahead
    if superCallAhead tokens then
      return (operand, assignable)
    else if ← nextSymbol "." then
      suffixes grammar line limit (← selection grammar operand line)
    else if ← nextSymbol "[" then
      let _ ← symbol "["
      let index ← grammar.expression 0 true
      let _ ← symbol "]"
      suffixes grammar line limit (.other [operand, index], true)
    else if ← nextSymbol "::" then
      let reference ← referenceTail grammar
      suffixes grammar line limit (.other (operand :: reference), false)
    else
      return (operand, assignable)

def inferredParameters (grammar : Grammar) : Parser (List Code) := do
  let _ ← symbol "("
  let _ ← listUntil ")" grammar.limit word
  return []

def receiverName : Nat → Parser Unit
  | 0 => fail
  | limit + 1 => do
    if ← optionalWord "this" then
      return ()
    let _ ← word
    let _ ← symbol "."
    receiverName limit

/-- A formal parameter, and the code in it; `none` for the receiver, which may only be the first. -/
def formalParameter (grammar : Grammar) (isFirst : Bool) :
    Parser (Option FormalParameter × Code) := do
  let before ← modifiers grammar
  let type ← unannotatedType grammar
  let inside := before.code ++ type.code
  if isFirst && before.words.isEmpty && ((← nextWord "this") || (← nextWordThen ".")) then
    receiverName grammar.limit
    return (none, .other inside)
  if ← optionalSymbol "..." then
    let after ← annotationStretch grammar
    let (name, sizes) ← variableName grammar
    let value ← if ← optionalSymbol "=" then
        if ← nextSymbol "\x7b" then pure [← arrayInitializer grammar grammar.limit]
        else pure [← grammar.expression 0 true]
      else pure []
    return (some ⟨name, type.text, true⟩, .other (inside ++ after.code ++ sizes ++ value))
  let (name, sizes) ← variableName grammar
  return (some ⟨name, type.text, false⟩, .binding (inside ++ sizes) name type.text)

def formalParameters (grammar : Grammar) : Parser (List FormalParameter × List Code) := do
  let _ ← symbol "("
  if ← optionalSymbol ")" then
    return ([], [])
  let first ← formalParameter grammar true
  let rest ← whileNext (·.isSymbol ",") (do
    let _ ← symbol ","
    formalParameter grammar false) grammar.limit
  let _ ← symbol ")"
  let found := first :: rest
  return (found.filterMap (·.1), found.map (·.2))

def lambdaTail (grammar : Grammar) (parameters : List Code) : Parser Code := do
  let _ ← symbol "->"
  if ← nextSymbol "\x7b" then
    return .other (parameters ++ [← grammar.statement])
  return .other (parameters ++ [← grammar.expression 0 true])

def lambda (grammar : Grammar) : Parser Code := do
  let parameters ← orElse (inferredParameters grammar) (do return (← formalParameters grammar).2)
  lambdaTail grammar parameters

def beginsOperand (token : Token) : Bool :=
  match token.kind with
  | .word => token.text != "instanceof"
  | .literal | .quote => true
  | .symbol => ["(", "!", "~", "+", "-", "++", "--"].contains token.text
  | _ => false

def beginsPrimary (token : Token) : Bool :=
  beginsOperand token && (token.kind != .symbol || token.text == "(")

def castExpression (grammar : Grammar) (arrow : Bool) : Parser Code := do
  let _ ← symbol "("
  if ← nextIs (·.isOneOf (expressionWords ++ softWords)) then
    fail
  let first ← grammar.type
  let more ← whileNext (·.isSymbol "&") (do let _ ← symbol "&"; grammar.type) grammar.limit
  let _ ← symbol ")"
  if ← nextIs (if more.isEmpty then beginsOperand else beginsPrimary) then
    let value ← grammar.expression postfixStrength arrow
    return .cast first.text (first.code ++ (Stretch.concat more).code ++ [value])
  fail

def recordPattern (grammar : Grammar) : Nat → Parser (List Code)
  | 0 => fail
  | limit + 1 => do
    let name ← word
    let arguments ← optionalTypeArguments grammar
    let rest ← typeTail grammar grammar.limit
    if !rest.tokens.isEmpty && (arguments.tokens ++ rest.tokens).all (!·.isSymbol "<") then
      fail
    let _ ← symbol "("
    let parts ← listUntil ")" grammar.limit (orElse (recordPattern grammar limit) (do
      let type ← unannotatedType grammar
      if type.tokens.length == 1 && type.text == "_" then
        return []
      let _ ← word
      return type.code))
    return (Stretch.concat [.single name, arguments, rest]).code ++ parts.flatten

def testTail (grammar : Grammar) : Parser (List Code) := do
  let _ ← optionalWord "final"
  orElse (recordPattern grammar grammar.limit) (do
    let type ← grammar.type
    if ← nextIs (fun next => next.kind == .word && next.text != "instanceof") then
      let _ ← word
    return type.code)

def casePattern (grammar : Grammar) : Parser (List Code) := do
  let found ← orElse (recordPattern grammar grammar.limit) (do
    let type ← unannotatedType grammar
    let _ ← token fun name => name.kind == .word && name.text != "when"
    return type.code)
  if ← nextIs (fun next => next.isSymbol ":" || next.isSymbol "->" || next.isWord "when") then
    return found
  fail

def switchLabel (grammar : Grammar) : Parser (List Code) := do
  if ← optionalWord "default" then
    return []
  let _ ← keyword "case"
  let found ← orElse (casePattern grammar)
    (separated "," grammar.limit (grammar.expression 0 false))
  if ← optionalWord "when" then
    return found ++ [← grammar.expression 0 false]
  return found

def labelAhead : Parser Bool := fun tokens =>
  match tokens with
  | first :: second :: _ =>
    .success (first.isWord "case" || (first.isWord "default" &&
      (second.isSymbol ":" || second.isSymbol "->"))) tokens
  | _ => .success false tokens

def moreLabels (grammar : Grammar) : Nat → Parser (List Code)
  | 0 => pure []
  | limit + 1 => do
    if ← labelAhead then
      let label ← switchLabel grammar
      let _ ← symbol ":"
      return label ++ (← moreLabels grammar limit)
    return []

def groupStatements (grammar : Grammar) : Nat → Parser (List Code)
  | 0 => fail
  | limit + 1 => do
    if (← labelAhead) || (← nextSymbol "\x7d") then
      return []
    let first ← grammar.statement
    return first :: (← groupStatements grammar limit)

def ruleBody (grammar : Grammar) : Parser Code := do
  if (← nextSymbol "\x7b") || (← nextWord "throw") then
    grammar.statement
  else
    let body ← grammar.expression 0 true
    let _ ← symbol ";"
    return body

def switchGroup (grammar : Grammar) : Parser (List Code) := do
  let _ ← symbol ":"
  let labels ← moreLabels grammar grammar.limit
  return labels ++ (← groupStatements grammar grammar.limit)

def switchBody (grammar : Grammar) : Parser (List Code) := do
  let _ ← symbol "\x7b"
  if ← optionalSymbol "\x7d" then
    return []
  let label ← switchLabel grammar
  if ← nextSymbol ":" then
    let first ← switchGroup grammar
    let rest ← untilNext (·.isSymbol "\x7d") (do
      let label ← switchLabel grammar
      return label ++ (← switchGroup grammar)) grammar.limit
    let _ ← symbol "\x7d"
    return label ++ first ++ rest.flatten
  let _ ← symbol "->"
  let first ← ruleBody grammar
  let rest ← untilNext (·.isSymbol "\x7d") (do
    let label ← switchLabel grammar
    let _ ← symbol "->"
    return label ++ [← ruleBody grammar]) grammar.limit
  let _ ← symbol "\x7d"
  return label ++ [first] ++ rest.flatten

def switchRule (grammar : Grammar) : Parser Code := do
  let _ ← keyword "switch"
  let subject ← condition grammar
  return .other (subject :: (← switchBody grammar))

/-- Whether a name alone in parentheses is next, with a sign after it that may be an operator between
operands as well as one before an operand. -/
def signedNameAhead : List Token → Bool
  | _ :: name :: closing :: sign :: _ =>
    name.kind == .word && !primitiveTypes.contains name.text && closing.isSymbol ")" &&
      (sign.isSymbol "+" || sign.isSymbol "-")
  | _ => false

/-- An operand that begins with a parenthesis. What could be a cast is one, unless a name alone is in
parentheses and a sign follows that may be an operator. -/
def parenthesis (grammar : Grammar) (arrow : Bool) (line : Nat) : Parser (Code × Bool) := do
  let tokens ← ahead
  if arrow && arrowAfterParentheses 0 tokens then
    return (← lambda grammar, false)
  let enclosed := do
    let inner ← condition grammar
    suffixes grammar line grammar.limit (.parenthesized inner, false)
  if signedNameAhead tokens then
    enclosed
  else
    orElse (do return (← castExpression grammar arrow, false)) enclosed

def nameOperand (grammar : Grammar) (arrow : Bool) (line : Nat) : Parser (Code × Bool) := do
  let name ← identifier
  if arrow && (← nextSymbol "->") then
    return (← lambdaTail grammar [], false)
  if ← nextSymbol "(" then
    let call := Code.call .implicit [] name.text (← argumentList grammar) line
    suffixes grammar line grammar.limit (call, false)
  else
    suffixes grammar line grammar.limit (.name name, true)

def wordOperand (grammar : Grammar) (arrow : Bool) (first : Token) : Parser (Code × Bool) := do
  let line := first.line
  if first.text == "new" then
    suffixes grammar line grammar.limit (← creation grammar [], false)
  else if first.text == "this" then
    let _ ← word
    suffixes grammar line grammar.limit (.this, false)
  else if first.text == "super" then
    let _ ← word
    -- The word alone is no operand; reading fails at the token after it.
    if !((← nextSymbol ".") || (← nextSymbol "::")) then
      let _ ← symbol "."
    suffixes grammar line grammar.limit (.super, false)
  else if ["true", "false", "null"].contains first.text then
    let _ ← word
    suffixes grammar line grammar.limit (.other [], false)
  else if first.text == "switch" then
    return (← switchRule grammar, false)
  else if primitiveTypes.contains first.text then
    suffixes grammar line grammar.limit (← typeSelection grammar, false)
  else
    let tokens ← ahead
    if typeNotationAhead tokens then
      orElse (do suffixes grammar line grammar.limit (← typeSelection grammar, false))
        (nameOperand grammar arrow line)
    else
      nameOperand grammar arrow line

def operand (grammar : Grammar) (arrow : Bool) : Parser (Code × Bool) := fun tokens =>
  match tokens with
  | [] => .failure []
  | first :: _ => match first.kind with
    | .word => wordOperand grammar arrow first tokens
    | .literal => (do
      let _ ← token fun next => next.kind == TokenKind.literal
      suffixes grammar first.line grammar.limit (.other [], false)) tokens
    | .quote => (do
      suffixes grammar first.line grammar.limit (← stringLiteral grammar, false)) tokens
    | .symbol =>
      if first.text == "(" then parenthesis grammar arrow first.line tokens
      else if first.text == "@" then
        (do suffixes grammar first.line grammar.limit (← typeSelection grammar, false)) tokens
      else if ["+", "-", "!", "~", "++", "--"].contains first.text then
        (do
          skip 1
          return (Code.other [← grammar.expression operandStrength arrow], false)) tokens
      else .failure tokens
    | _ => .failure tokens

def operators (grammar : Grammar) (strength : Nat) (arrow : Bool) : Nat → Code → Parser Code
  | 0, left => pure left
  | limit + 1, left => do
    let tokens ← ahead
    let (sign, count) := signAhead tokens
    if (sign == "++" || sign == "--") && strength ≤ postfixStrength then
      skip count
      operators grammar strength arrow limit (.other [left])
    else if sign == "?" && strength ≤ conditionalStrength then
      skip count
      let chosen ← grammar.expression 0 true
      let _ ← symbol ":"
      let alternative ← grammar.expression conditionalStrength arrow
      operators grammar strength arrow limit (.other [left, chosen, alternative])
    else if (← nextWord "instanceof") && strength ≤ testStrength then
      skip 1
      let test ← testTail grammar
      operators grammar strength arrow limit (.other (left :: test))
    else match infixStrength sign with
      | some own =>
        if strength ≤ own then
          skip count
          let right ← grammar.expression (own + 1) arrow
          operators grammar strength arrow limit (.other [left, right])
        else
          return left
      | none => return left

/-- An expression whose operators bind at least as tightly as the given strength. An operand that can
be assigned to takes everything after an assignment sign as its new value. -/
def expressionRule (grammar : Grammar) (strength : Nat) (arrow : Bool) : Parser Code := do
  let (first, assignable) ← operand grammar arrow
  let tokens ← ahead
  let (sign, count) := signAhead tokens
  if superCallAhead tokens then
    -- Reading fails at the token after the word.
    skip 2
    fail
  else if assignable && assignmentSigns.contains sign then
    skip count
    return .other [first, ← grammar.expression 0 arrow]
  else
    operators grammar strength arrow grammar.limit first

end CallContext.Java.Parser
