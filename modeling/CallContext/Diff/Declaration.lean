import CallContext.Text.Blank
import CallContext.Text.Word

/-!
Recognizing the declaration of a method by the look of a line: a modifier stands somewhere before a
name with an opening parenthesis after it, and no other parenthesis comes between.
-/

namespace CallContext.Diff

def declarationWords : List (List Char) :=
  ["public", "protected", "private", "static", "final", "synchronized", "abstract",
    "default"].map String.toList

/-- What follows the given word at the beginning of a text, if the word ends there. -/
def afterWord (word text : List Char) : Option (List Char) :=
  if word.isPrefixOf text && !(text.drop word.length).head?.any Text.isWordPart then
    some (text.drop word.length)
  else none

def isAsciiIdentifier (word : List Char) : Bool :=
  match word with
  | [] => false
  | first :: rest =>
    (first.isAlpha || first == '_') && rest.all fun c => c.isAlphanum || c == '_'

def lastWord (text : List Char) : List Char :=
  ((Text.trimEnd text).reverse.takeWhile Text.isWordPart).reverse

def isParenthesis (c : Char) : Bool :=
  c == '(' || c == ')'

/-- The name before the first parenthesis of a text, if that one opens. -/
def nameBeforeParenthesis (text : List Char) : Option String :=
  match text.dropWhile (!isParenthesis ·) with
  | '(' :: _ =>
    let name := lastWord (text.takeWhile (!isParenthesis ·))
    if isAsciiIdentifier name then some (String.ofList name) else none
  | _ => none

def declaredAtStart (text : List Char) : Option String :=
  (declarationWords.findSome? fun word => afterWord word text).bind nameBeforeParenthesis

/-- The name that the first suitable modifier in a text declares. The flag tells whether the character
before the text belongs to a word. -/
def declaredFrom (insideWord : Bool) : List Char → Option String
  | [] => none
  | c :: rest =>
    match if insideWord then none else declaredAtStart (c :: rest) with
    | some name => some name
    | none => declaredFrom (Text.isWordPart c) rest

def declaredName (line : List Char) : Option String :=
  declaredFrom false line

end CallContext.Diff
