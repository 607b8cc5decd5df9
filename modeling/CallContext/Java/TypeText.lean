import CallContext.Text.Blank
import CallContext.Text.Cut

/-!
The text of written types. The erased form of a type has neither white space nor type arguments.
-/

namespace CallContext.Java.TypeText

/-- The characters outside angle brackets that are not white space, after as many open brackets as the
number says. A closing bracket that closes nothing is dropped. -/
def eraseFrom : Nat → List Char → List Char
  | _, [] => []
  | depth, c :: rest =>
    if c = '<' then eraseFrom (depth + 1) rest
    else if c = '>' then eraseFrom (depth - 1) rest
    else if depth = 0 && !Text.isBlank c then c :: eraseFrom depth rest
    else eraseFrom depth rest

def erase (written : String) : String :=
  String.ofList (eraseFrom 0 written.toList)

def isArray (erased : String) : Bool :=
  (Text.dropEnd? "[]".toList erased.toList).isSome ||
    (Text.dropEnd? "...".toList erased.toList).isSome

end CallContext.Java.TypeText
