import CallContext.Java.Parser.Grammar

namespace CallContext.Java.Parser

def nameTail : Nat → Parser (List Token)
  | 0 => pure []
  | limit + 1 => fun tokens => match tokens with
    | dot :: next :: rest =>
      if dot.isSymbol "." && next.kind == .word then
        (do return dot :: next :: (← nameTail limit)) rest
      else .success [] tokens
    | _ => .success [] tokens

def dottedName (limit : Nat) : Parser (List Token) := do
  return (← word) :: (← nameTail limit)

def between (start stop : List Token) : List Token :=
  match stop with
  | [] => start
  | next :: _ => start.takeWhile (·.index < next.index)

def elementValue (grammar : Grammar) : Nat → Parser (List Code)
  | 0 => fail
  | limit + 1 => do
    if ← nextSymbol "@" then
      return (← grammar.marker).stretch.code
    if ← optionalSymbol "\x7b" then
      if ← optionalSymbol "," then
        let _ ← symbol "\x7d"
        return []
      let values ← untilNext (·.isSymbol "\x7d") (do
        let value ← elementValue grammar limit
        if !(← nextSymbol "\x7d") then
          let _ ← symbol ","
        return value) grammar.limit
      let _ ← symbol "\x7d"
      return values.flatten
    return [← grammar.expression 0 true]

def nextWordThen (sign : String) : Parser Bool := fun tokens =>
  match tokens with
  | first :: second :: _ => .success (first.kind == .word && second.isSymbol sign) tokens
  | _ => .success false tokens

def element (grammar : Grammar) : Parser (List Code) := do
  let _ ← word
  let _ ← symbol "="
  elementValue grammar grammar.limit

def annotationArguments (grammar : Grammar) : Parser (List Code) := do
  let _ ← symbol "("
  if (← nextWordThen "=") || (← nextSymbol ")") then
    return (← listUntil ")" grammar.limit (element grammar)).flatten
  let value ← elementValue grammar grammar.limit
  let _ ← symbol ")"
  return value

def annotationRule (grammar : Grammar) : Parser Marker := do
  let start ← ahead
  let _ ← symbol "@"
  let name ← dottedName grammar.limit
  if ← nextSymbol "(" then
    let arguments ← annotationArguments grammar
    let stop ← ahead
    return ⟨Token.spell name, between start stop, arguments⟩
  let stop ← ahead
  return ⟨Token.spell name, between start stop, []⟩

def annotations (grammar : Grammar) : Parser (List Marker) :=
  whileNext (·.isSymbol "@") grammar.marker grammar.limit

def annotationStretch (grammar : Grammar) : Parser Stretch := do
  return .concat ((← annotations grammar).map (·.stretch))

structure Modifiers where
  annotations : List Marker
  words : List String

namespace Modifiers

def code (modifiers : Modifiers) : List Code :=
  Marker.codes modifiers.annotations

def names (modifiers : Modifiers) : List String :=
  modifiers.annotations.map (·.name)

def isEmpty (modifiers : Modifiers) : Bool :=
  modifiers.annotations.isEmpty && modifiers.words.isEmpty

end Modifiers

def modifier (grammar : Grammar) : Parser (Marker ⊕ String) := do
  if ← nextSymbol "@" then
    return .inl (← grammar.marker)
  return .inr (← token Token.isModifier).text

def modifiers (grammar : Grammar) : Parser Modifiers := do
  let found ← whileNext Token.isModifier (modifier grammar) grammar.limit
  return ⟨found.filterMap (·.getLeft?), found.filterMap (·.getRight?)⟩

def typeArgument (grammar : Grammar) : Parser Stretch := do
  let before ← annotationStretch grammar
  if ← nextSymbol "?" then
    let mark ← symbol "?"
    if (← nextWord "extends") || (← nextWord "super") then
      let bound ← word
      return .concat [before, .single mark, .single bound, ← grammar.type]
    return .concat [before, .single mark]
  return .concat [before, ← grammar.type]

def moreTypeArguments (grammar : Grammar) : Parser Stretch := do
  let found ← whileNext (·.isSymbol ",") (do
    let comma ← symbol ","
    return Stretch.concat [.single comma, ← typeArgument grammar]) grammar.limit
  return .concat found

def typeArguments (grammar : Grammar) : Parser Stretch := do
  let opening ← symbol "<"
  if ← nextSymbol ">" then
    return .concat [.single opening, .single (← symbol ">")]
  let first ← typeArgument grammar
  let rest ← moreTypeArguments grammar
  return .concat [.single opening, first, rest, .single (← symbol ">")]

def optionalTypeArguments (grammar : Grammar) : Parser Stretch := do
  if ← nextSymbol "<" then
    typeArguments grammar
  else
    return .empty

def typeTail (grammar : Grammar) : Nat → Parser Stretch
  | 0 => pure .empty
  | limit + 1 => fun tokens => match tokens with
    | dot :: next :: _ =>
      if dot.isSymbol "." &&
          (next.isSymbol "@" || (next.kind == .word && !next.isOneOf selectorWords)) then
        (do
          let dot ← symbol "."
          let before ← annotationStretch grammar
          let name ← word
          let arguments ← optionalTypeArguments grammar
          return Stretch.concat
            [.single dot, before, .single name, arguments, ← typeTail grammar limit]) tokens
      else .success .empty tokens
    | _ => .success .empty tokens

def simpleType (grammar : Grammar) : Parser Stretch := do
  let name ← word
  if primitiveTypes.contains name.text then
    return .single name
  let arguments ← optionalTypeArguments grammar
  return .concat [.single name, arguments, ← typeTail grammar grammar.limit]

def nextBrackets : Parser Bool := fun tokens =>
  match tokens with
  | opening :: closing :: _ => .success (opening.isSymbol "[" && closing.isSymbol "]") tokens
  | _ => .success false tokens

def dimension (grammar : Grammar) : Parser Stretch := do
  let before ← annotationStretch grammar
  let opening ← symbol "["
  let closing ← symbol "]"
  return .concat [before, .single opening, .single closing]

def dimensions (grammar : Grammar) : Nat → Parser Stretch
  | 0 => pure .empty
  | limit + 1 => do
    if ← nextBrackets then
      return .concat [← dimension grammar, ← dimensions grammar limit]
    if ← nextSymbol "@" then
      orElse (do return .concat [← dimension grammar, ← dimensions grammar limit]) (pure .empty)
    else
      return .empty

def unannotatedType (grammar : Grammar) : Parser Stretch := do
  return .concat [← simpleType grammar, ← dimensions grammar grammar.limit]

def typeRule (grammar : Grammar) : Parser Stretch := do
  return .concat [← annotationStretch grammar, ← unannotatedType grammar]

def typesSeparated (sign : String) (grammar : Grammar) : Parser (List Stretch) :=
  separated sign grammar.limit grammar.type

def typeParameter (grammar : Grammar) : Parser (List Code) := do
  let before ← annotationStretch grammar
  let _ ← word
  if ← optionalWord "extends" then
    let bounds ← typesSeparated "&" grammar
    return before.code ++ (Stretch.concat bounds).code
  return before.code

def optionalTypeParameters (grammar : Grammar) : Parser (List Code) := do
  if ← optionalSymbol "<" then
    let parameters ← separated "," grammar.limit (typeParameter grammar)
    let _ ← symbol ">"
    return parameters.flatten
  return []

def variableName (grammar : Grammar) : Parser (String × List Code) := do
  let name ← word
  let after ← dimensions grammar grammar.limit
  return (name.text, after.code)

end CallContext.Java.Parser
