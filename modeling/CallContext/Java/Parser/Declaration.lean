import CallContext.Java.Parser.Expression

namespace CallContext.Java.Parser

def declarator (grammar : Grammar) : Parser (String × Code) := do
  let (name, sizes) ← variableName grammar
  if ← optionalSymbol "=" then
    if ← nextSymbol "\x7b" then
      let value ← arrayInitializer grammar grammar.limit
      return (name, .declarator name sizes [value])
    let value ← grammar.expression 0 true
    return (name, .declarator name sizes [value])
  return (name, .declarator name sizes [])

def declarators (grammar : Grammar) : Parser (List (String × Code)) := do
  let found ← separated "," grammar.limit (declarator grammar)
  let _ ← symbol ";"
  return found

def optionalThrows (grammar : Grammar) : Parser (List Code) := do
  if ← optionalWord "throws" then
    return (Stretch.concat (← typesSeparated "," grammar)).code
  return []

def optionalTypes (grammar : Grammar) (introduction : String) : Parser (List Stretch) := do
  if ← optionalWord introduction then
    typesSeparated "," grammar
  else
    return []

def methodTail (grammar : Grammar) (start : Token) (before : Modifiers) (typeParameters : List Code)
    (type : Stretch) (name : String) : Parser MethodSyntax := do
  let (parameters, inside) ← formalParameters grammar
  let after ← dimensions grammar grammar.limit
  let thrown ← optionalThrows grammar
  let heading := before.code ++ typeParameters ++ type.code ++ inside ++ after.code ++ thrown
  if ← nextSymbol "\x7b" then
    let body ← grammar.statement
    return ⟨before.names, name, type.text, parameters, start.line, heading, some body⟩
  let _ ← symbol ";"
  return ⟨before.names, name, type.text, parameters, start.line, heading, none⟩

def firstToken : Parser Token := fun tokens =>
  match tokens with
  | [] => .failure []
  | first :: _ => .success first tokens

def blockStatements (grammar : Grammar) : Parser (List Code) := do
  let statements ← untilNext (·.isSymbol "\x7d") grammar.statement grammar.limit
  let _ ← symbol "\x7d"
  return statements

def block (grammar : Grammar) : Parser Code := do
  let _ ← symbol "\x7b"
  return .other (← blockStatements grammar)

def constructorCall (grammar : Grammar) : Parser (List Code) := do
  let arguments ← optionalTypeArguments grammar
  let _ ← token (·.isOneOf ["this", "super"])
  let values ← argumentList grammar
  let _ ← symbol ";"
  return arguments.code ++ values

/-- The call of an outer object's superclass constructor. If it has type arguments it reads like the call
of a method and is left to the statements. -/
def outerConstructorCall (grammar : Grammar) : Parser (List Code) := do
  if ← nextWord "switch" then
    fail
  let (object, _) ← operand grammar false
  if object matches .super then
    fail
  let _ ← symbol "."
  let _ ← keyword "super"
  let values ← argumentList grammar
  let _ ← symbol ";"
  return object :: values

def constructorBody (grammar : Grammar) : Parser (List Code) := do
  let _ ← symbol "\x7b"
  let call ← orElse (constructorCall grammar) (orElse (outerConstructorCall grammar) (pure []))
  return call ++ (← blockStatements grammar)

def constructorTail (grammar : Grammar) (heading : List Code) : Parser Member := do
  let (_, inside) ← formalParameters grammar
  let thrown ← optionalThrows grammar
  return .other (heading ++ inside ++ thrown ++ (← constructorBody grammar))

def membersUntilBrace (grammar : Grammar) (one : Parser Member) : Parser (List Member) := do
  let found ← untilNext (·.isSymbol "\x7d") (do
    if ← optionalSymbol ";" then
      return []
    return [← one]) grammar.limit
  let _ ← symbol "\x7d"
  return found.flatten

def enumConstant (grammar : Grammar) : Parser Member := do
  let before ← modifiers grammar
  let _ ← word
  let values ← if ← nextSymbol "(" then argumentList grammar else pure []
  if ← nextSymbol "\x7b" then
    return .other (before.code ++ values ++ Member.codes (← grammar.classBody))
  return .other (before.code ++ values)

def enumConstants (grammar : Grammar) : Parser (List Member) := do
  if ← optionalSymbol "," then
    return []
  untilNext (fun next => next.isSymbol ";" || next.isSymbol "\x7d") (do
    let constant ← enumConstant grammar
    if !(← nextIs fun next => next.isSymbol ";" || next.isSymbol "\x7d") then
      let _ ← symbol ","
    return constant) grammar.limit

def enumBody (grammar : Grammar) (one : Parser Member) : Parser (List Member) := do
  let _ ← symbol "\x7b"
  let constants ← enumConstants grammar
  if ← optionalSymbol ";" then
    return constants ++ (← membersUntilBrace grammar one)
  let _ ← symbol "\x7d"
  return constants

def classTail (grammar : Grammar) (before : Modifiers) : Parser Member := do
  let name ← identifier
  let parameters ← optionalTypeParameters grammar
  let superclass ← if ← optionalWord "extends" then pure [← grammar.type] else pure []
  let interfaces ← optionalTypes grammar "implements"
  let permitted ← optionalTypes grammar "permits"
  let inside := (Stretch.concat (superclass ++ interfaces ++ permitted)).code
  let members ← grammar.classBody
  return .type ⟨.classKind, name, before.names, (superclass ++ interfaces).map (·.text), [],
    before.code ++ parameters ++ inside⟩ members

def interfaceTail (grammar : Grammar) (before : Modifiers) (one : Parser Member) :
    Parser Member := do
  let name ← identifier
  let parameters ← optionalTypeParameters grammar
  let extended ← optionalTypes grammar "extends"
  let permitted ← optionalTypes grammar "permits"
  let _ ← symbol "\x7b"
  let members ← membersUntilBrace grammar one
  return .type ⟨.interfaceKind, name, before.names, extended.map (·.text), [],
    before.code ++ parameters ++ (Stretch.concat (extended ++ permitted)).code⟩ members

def enumTail (grammar : Grammar) (before : Modifiers) (one : Parser Member) : Parser Member := do
  let name ← identifier
  let interfaces ← optionalTypes grammar "implements"
  let members ← enumBody grammar one
  return .type ⟨.enumKind, name, before.names, interfaces.map (·.text), [],
    before.code ++ (Stretch.concat interfaces).code⟩ members

def recordTail (grammar : Grammar) (before : Modifiers) : Parser Member := do
  let name ← identifier
  let typeParameters ← optionalTypeParameters grammar
  let (components, inside) ← formalParameters grammar
  let interfaces ← optionalTypes grammar "implements"
  let members ← grammar.classBody
  -- A variadic component is not read as a field.
  let named := (components.filter (!·.variadic)).map fun component => (component.name, component.type)
  return .type ⟨.recordKind, name, before.names, interfaces.map (·.text), named,
    before.code ++ typeParameters ++ inside ++ (Stretch.concat interfaces).code⟩ members

def elementTail (grammar : Grammar) : Parser (List Code) := do
  let _ ← symbol "("
  let _ ← symbol ")"
  let after ← dimensions grammar grammar.limit
  if ← optionalWord "default" then
    let value ← elementValue grammar grammar.limit
    let _ ← symbol ";"
    return after.code ++ value
  let _ ← symbol ";"
  return after.code

inductive Setting where
  | classBody
  | interfaceBody
  | annotationBody
  deriving DecidableEq

/-- Whether a token introduces a type declaration. Records are introduced by a word that may also be a
name, so that more than one token decides about them. -/
def introducesType (token : Token) : Bool :=
  token.isOneOf ["class", "interface", "enum"] || token.isSymbol "@interface"

def typedMember (grammar : Grammar) (setting : Setting) (start : Token) (before : Modifiers)
    (typeParameters : List Code) : Parser Member := do
  let type ← unannotatedType grammar
  if ← nextWordThen "(" then
    let name ← word
    if setting == .annotationBody then
      return .other (before.code ++ type.code ++ (← elementTail grammar))
    return .method (← methodTail grammar start before typeParameters type name.text)
  let found ← declarators grammar
  return .fields type.text (found.map (·.1)) (before.code ++ type.code ++ found.map (·.2))

def memberAfter (grammar : Grammar) (inner : Setting → Parser Member) (setting : Setting)
    (start : Token) (before : Modifiers) : Parser Member := do
  let next ← firstToken
  if next.isWord "class" then
    let _ ← word
    classTail grammar before
  else if next.isWord "interface" then
    let _ ← word
    interfaceTail grammar before (inner .interfaceBody)
  else if next.isWord "enum" then
    let _ ← word
    enumTail grammar before (inner .classBody)
  else if next.isSymbol "@interface" then
    skip 1
    let _ ← word
    let _ ← symbol "\x7b"
    let members ← membersUntilBrace grammar (inner .annotationBody)
    return .other (before.code ++ Member.codes members)
  else if next.isWord "record" && setting != .annotationBody then
    let _ ← word
    recordTail grammar before
  else if next.isSymbol "\x7b" && setting == .classBody &&
      (before.isEmpty || (before.annotations.isEmpty && before.words == ["static"])) then
    return .other [← block grammar]
  else if setting == .classBody && (← nextWordThen "(") then
    let _ ← word
    constructorTail grammar before.code
  else if setting == .classBody && (← nextWordThen "\x7b") then
    let _ ← word
    return .other (before.code ++ [← block grammar])
  else if next.isSymbol "<" && setting != .annotationBody then
    let parameters ← optionalTypeParameters grammar
    let after ← annotationStretch grammar
    if setting == .classBody && (← nextWordThen "(") then
      let _ ← word
      constructorTail grammar (before.code ++ parameters)
    else
      let type ← unannotatedType grammar
      let name ← word
      return .method (← methodTail grammar start before (parameters ++ after.code) type name.text)
  else
    typedMember grammar setting start before []

def memberRule (grammar : Grammar) : Nat → Setting → Parser Member
  | 0, _ => fail
  | limit + 1, setting => do
    let start ← firstToken
    memberAfter grammar (memberRule grammar limit) setting start (← modifiers grammar)

def classBodyRule (grammar : Grammar) : Parser (List Member) := do
  let _ ← symbol "\x7b"
  membersUntilBrace grammar (memberRule grammar grammar.limit .classBody)

def nameList (grammar : Grammar) : Parser Unit := do
  let _ ← separated "," grammar.limit (dottedName grammar.limit)

def moduleDirective (grammar : Grammar) : Parser Unit := do
  let first ← word
  if first.text == "requires" then
    let _ ← whileNext (·.isOneOf ["transitive", "static"]) word grammar.limit
    let _ ← dottedName grammar.limit
  else if first.text == "exports" || first.text == "opens" then
    let _ ← dottedName grammar.limit
    if ← optionalWord "to" then
      nameList grammar
  else if first.text == "uses" then
    let _ ← dottedName grammar.limit
  else if first.text == "provides" then
    let _ ← dottedName grammar.limit
    let _ ← keyword "with"
    nameList grammar
  else
    fail
  let _ ← symbol ";"

def moduleTail (grammar : Grammar) : Parser Unit := do
  let _ ← keyword "module"
  let _ ← dottedName grammar.limit
  let _ ← symbol "\x7b"
  let _ ← untilNext (·.isSymbol "\x7d") (moduleDirective grammar) grammar.limit
  let _ ← symbol "\x7d"

def packageTail (grammar : Grammar) : Parser Item := do
  let _ ← keyword "package"
  let name ← dottedName grammar.limit
  let _ ← symbol ";"
  return .package (Token.spell name)

def importRule (grammar : Grammar) : Parser Item := do
  let _ ← keyword "import"
  let isStatic ← optionalWord "static"
  let name ← dottedName grammar.limit
  let wildcard ← optionalSymbol "."
  if wildcard then
    let _ ← symbol "*"
  let _ ← symbol ";"
  return .imports ⟨Token.spell name, isStatic, wildcard⟩

end CallContext.Java.Parser
