/-!
White space: the characters it consists of, trimming, and cutting a text into words.

The words of a text are its maximal runs without white space; `squash` puts one space between them.
-/

namespace CallContext.Text

/-- The property `White_Space`: twenty-five characters, six of them ASCII. -/
def isBlank (c : Char) : Bool :=
  let n := c.toNat
  (9 ≤ n && n ≤ 13) || n == 0x20 || n == 0x85 || n == 0xa0 || n == 0x1680 ||
    (0x2000 ≤ n && n ≤ 0x200a) || n == 0x2028 || n == 0x2029 || n == 0x202f || n == 0x205f ||
    n == 0x3000

def trimEnd (text : List Char) : List Char :=
  (text.reverse.dropWhile isBlank).reverse

def trim (text : List Char) : List Char :=
  trimEnd (text.dropWhile isBlank)

def wordsAfter : List Char → List Char → List (List Char)
  | [], [] => []
  | pending, [] => [pending.reverse]
  | [], c :: rest => if isBlank c then wordsAfter [] rest else wordsAfter [c] rest
  | p :: pending, c :: rest =>
    if isBlank c then (p :: pending).reverse :: wordsAfter [] rest
    else wordsAfter (c :: p :: pending) rest

def words (text : List Char) : List (List Char) :=
  wordsAfter [] text

def squash (text : String) : String :=
  String.ofList ((words text.toList).intersperse [' ']).flatten

def trimmed (text : String) : String :=
  String.ofList (trim text.toList)

end CallContext.Text
