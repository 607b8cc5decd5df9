import CallContext.Java.Parser.Declaration

namespace CallContext.Java.Parser

def localsTail (grammar : Grammar) (before : Modifiers) : Parser Code := do
  let type ← unannotatedType grammar
  let found ← declarators grammar
  return .locals (before.code ++ type.code) type.text (found.map (·.2))

def expressionStatement (grammar : Grammar) : Parser Code := do
  let value ← grammar.expression 0 true
  let _ ← symbol ";"
  return value

/-- Words and brackets that no declaration of variables begins with where a statement may stand. -/
def beginsWithType (first : Token) : Bool :=
  first.kind == .word && !first.isOneOf expressionWords && !first.isOneOf softWords

def simpleStatement (grammar : Grammar) : Parser Code := do
  let first ← firstToken
  if beginsWithType first then
    orElse (localsTail grammar ⟨[], []⟩) (expressionStatement grammar)
  else
    expressionStatement grammar

def ifRule (grammar : Grammar) : Parser Code := do
  let _ ← keyword "if"
  let test ← condition grammar
  let chosen ← grammar.statement
  if ← optionalWord "else" then
    return .other [test, chosen, ← grammar.statement]
  return .other [test, chosen]

def whileRule (grammar : Grammar) : Parser Code := do
  let _ ← keyword "while"
  let test ← condition grammar
  return .other [test, ← grammar.statement]

def doRule (grammar : Grammar) : Parser Code := do
  let _ ← keyword "do"
  let body ← grammar.statement
  let _ ← keyword "while"
  let test ← condition grammar
  let _ ← symbol ";"
  return .other [body, test]

def loopVariable (grammar : Grammar) : Parser (List Code × String × String) := do
  let before ← modifiers grammar
  let type ← unannotatedType grammar
  let (name, sizes) ← variableName grammar
  let _ ← symbol ":"
  return (before.code ++ type.code ++ sizes, name, type.text)

def loopStart (grammar : Grammar) : Parser (List Code) := do
  if ← optionalSymbol ";" then
    return []
  let before ← modifiers grammar
  if !before.isEmpty then
    return [← localsTail grammar before]
  let first ← firstToken
  let expressions := do
    let found ← separated "," grammar.limit (grammar.expression 0 true)
    let _ ← symbol ";"
    return found
  if beginsWithType first then
    orElse (do return [← localsTail grammar before]) expressions
  else
    expressions

def forRule (grammar : Grammar) : Parser Code := do
  let _ ← keyword "for"
  let _ ← symbol "("
  let each ← orElse (do return some (← loopVariable grammar)) (pure none)
  match each with
  | some (before, name, type) =>
    let elements ← grammar.expression 0 true
    let _ ← symbol ")"
    let body ← grammar.statement
    return .binding (before ++ [elements, body]) name type
  | none =>
    let start ← loopStart grammar
    let test ← if ← nextSymbol ";" then pure [] else pure [← grammar.expression 0 true]
    let _ ← symbol ";"
    let updates ← listUntil ")" grammar.limit (grammar.expression 0 true)
    let body ← grammar.statement
    return .other (start ++ test ++ updates ++ [body])

def catchClauses (grammar : Grammar) : Parser (List Code) :=
  whileNext (·.isWord "catch") (do
    let _ ← keyword "catch"
    let _ ← symbol "("
    let before ← modifiers grammar
    let types ← separated "|" grammar.limit (unannotatedType grammar)
    let (name, sizes) ← variableName grammar
    let _ ← symbol ")"
    let inside := before.code ++ (Stretch.concat types).code ++ sizes
    let handler ← block grammar
    return .other [.caught inside name (types.map (·.text)), handler]) grammar.limit

def finallyClause (grammar : Grammar) : Parser (List Code) := do
  if ← optionalWord "finally" then
    return [← block grammar]
  return []

def resource (grammar : Grammar) : Parser Code :=
  orElse (do
    let before ← modifiers grammar
    let type ← unannotatedType grammar
    let (name, sizes) ← variableName grammar
    let _ ← symbol "="
    let value ← grammar.expression 0 true
    return .binding (before.code ++ type.code ++ sizes ++ [value]) name type.text) (do
    let value ← grammar.expression operandStrength true
    match value with
    | .name _ | .field .. => return value
    | _ => fail)

def tryRule (grammar : Grammar) : Parser Code := do
  let _ ← keyword "try"
  if ← optionalSymbol "(" then
    let first ← resource grammar
    let more ← whileNext (·.isSymbol ";") (do
      let _ ← symbol ";"
      if ← nextSymbol ")" then
        return .other []
      else
        resource grammar) grammar.limit
    let _ ← symbol ")"
    let body ← block grammar
    let caught ← catchClauses grammar
    return .other (first :: more ++ [body] ++ caught ++ (← finallyClause grammar))
  let body ← block grammar
  let caught ← catchClauses grammar
  if caught.isEmpty && !(← nextWord "finally") then
    fail
  return .other (body :: caught ++ (← finallyClause grammar))

def jumpRule : Parser Code := do
  let _ ← word
  if !(← nextSymbol ";") then
    let _ ← word
  let _ ← symbol ";"
  return .other []

def returnRule (grammar : Grammar) : Parser Code := do
  let _ ← keyword "return"
  if ← optionalSymbol ";" then
    return .other []
  expressionStatement grammar

def assertRule (grammar : Grammar) : Parser Code := do
  let _ ← keyword "assert"
  let test ← grammar.expression 0 true
  if ← optionalSymbol ":" then
    return .other [test, ← expressionStatement grammar]
  let _ ← symbol ";"
  return test

/-- The statement that each word introduces, where a word always introduces the same. -/
def introduced (grammar : Grammar) (word : String) : Option (Parser Code) :=
  match word with
  | "if" => some (ifRule grammar)
  | "while" => some (whileRule grammar)
  | "do" => some (doRule grammar)
  | "for" => some (forRule grammar)
  | "try" => some (tryRule grammar)
  | "break" => some jumpRule
  | "continue" => some jumpRule
  | "return" => some (returnRule grammar)
  | "throw" => some (do skip 1; expressionStatement grammar)
  | "assert" => some (assertRule grammar)
  | "switch" => some (switchRule grammar)
  | _ => none

def recordAhead : List Token → Bool
  | first :: second :: third :: _ =>
    first.isWord "record" && second.kind == .word && (third.isSymbol "(" || third.isSymbol "<")
  | _ => false

def moduleAhead : List Token → Bool
  | first :: second :: _ =>
    (first.isWord "module" && second.kind == .word) || (first.isWord "open" && second.isWord "module")
  | _ => false

def modifiedItem (grammar : Grammar) (before : Modifiers) : Parser Item := do
  let tokens ← ahead
  let next ← firstToken
  if introducesType next || recordAhead tokens then
    return .member
      (← memberAfter grammar (memberRule grammar grammar.limit) .classBody next before)
  else if next.isWord "package" && before.words.isEmpty then
    packageTail grammar
  else if moduleAhead tokens && before.words.isEmpty then
    let _ ← optionalWord "open"
    moduleTail grammar
    return .code (.other before.code)
  else
    return .code (← localsTail grammar before)

def plainStatement (grammar : Grammar) (first : Token) : Parser Code := do
  if (← nextWordThen ":") && beginsWithType first && !first.isOneOf primitiveTypes then
    skip 2
    grammar.statement
  else
    simpleStatement grammar

def itemRule (grammar : Grammar) : Parser Item := do
  let tokens ← ahead
  let first ← firstToken
  if first.isSymbol "\x7b" then
    return .code (← block grammar)
  if ← optionalSymbol ";" then
    return .code (.other [])
  if let some rule := (if first.kind == .word then introduced grammar first.text else none) then
    return .code (← rule)
  if first.isWord "synchronized" && (tokens.drop 1).head?.any (·.isSymbol "(") then
    skip 1
    let lock ← condition grammar
    return .code (.other [lock, ← block grammar])
  if first.isWord "yield" then
    return .code (← orElse (do skip 1; expressionStatement grammar) (expressionStatement grammar))
  if first.isWord "import" then
    importRule grammar
  else if first.isWord "sealed" then
    orElse (do modifiedItem grammar (← modifiers grammar))
      (do return .code (← expressionStatement grammar))
  else if first.isModifier || introducesType first || recordAhead tokens || moduleAhead tokens ||
      first.isWord "package" then
    modifiedItem grammar (← modifiers grammar)
  else
    return .code (← plainStatement grammar first)

def statementRule (grammar : Grammar) : Parser Code := do
  return (← itemRule grammar).toCode

def looseMethod (grammar : Grammar) : Parser Item := do
  let start ← firstToken
  let before ← modifiers grammar
  let parameters ← optionalTypeParameters grammar
  let after ← annotationStretch grammar
  let type ← unannotatedType grammar
  let name ← word
  return .member (.method
    (← methodTail grammar start before (parameters ++ after.code) type name.text))

/-- Whether what is next is introduced by a word or sign that rules out a method declaration. -/
def rulesOutMethod (grammar : Grammar) (first : Token) : Bool :=
  if first.kind == .word then
    (introduced grammar first.text).isSome || first.isOneOf expressionWords ||
      introducesType first || first.isOneOf ["import", "package"] ||
      (first.isOneOf softWords && !first.isWord "sealed")
  else !(first.isSymbol "<" || first.isModifier)

def fileItem (grammar : Grammar) : Parser Item := do
  let first ← firstToken
  if rulesOutMethod grammar first then
    itemRule grammar
  else
    orElse (itemRule grammar) (looseMethod grammar)

end CallContext.Java.Parser
