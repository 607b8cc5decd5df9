import CallContext.Path
import CallContext.Text.Blank

/-!
Counting tokens, and cutting a text so that it has few enough of them. What a token is differs; the
encodings of language models are counted by bytes, since a token never has less than one byte: a text
that fits by that count fits by theirs.
-/

namespace CallContext

structure TokenCounter where
  count : String → Nat
  truncate : String → Nat → String

namespace TokenCounter

/-- Tokens are words. A text that is cut has one space between words. -/
def words : TokenCounter where
  count text := (Text.words text.toList).length
  truncate text limit :=
    String.ofList (((Text.words text.toList).take limit).intersperse [' ']).flatten

def characters : TokenCounter where
  count text := text.length
  truncate text limit := String.ofList (text.toList.take limit)

def takeBytes : Nat → List Char → List Char
  | _, [] => []
  | limit, c :: rest =>
    if c.utf8Size ≤ limit then c :: takeBytes (limit - c.utf8Size) rest else []

/-- Tokens are bytes; a text is cut between characters. -/
def bytes : TokenCounter where
  count text := text.utf8ByteSize
  truncate text limit := String.ofList (takeBytes limit text.toList)

def knownModels : List String := ["gpt-4o", "o200k_base", "cl100k_base"]

def unknownModel (name : String) : String :=
  "Unsupported model/encoding: " ++ name

def ofModel (name : String) : Except String TokenCounter :=
  if knownModels.contains (Path.lowered name) then .ok bytes else .error (unknownModel name)

/-- The counter for a model, or for the latest encoding if the model is not known. -/
def forModel (name : String) : TokenCounter :=
  match ofModel name with
  | .ok counter => counter
  | .error _ => bytes

end TokenCounter

end CallContext
