import CallContext.Path
import CallContext.Text.Word

namespace CallContext.Path

abbrev Environment := List (String × String)

def cutDefault : List Char → Option (List Char × List Char)
  | [] => none
  | ':' :: '-' :: rest => some ([], rest)
  | c :: rest => (cutDefault rest).map fun (before, after) => (c :: before, after)

/-- The value of what stands between braces: a variable, or a variable and after `:-` the value that
counts if it is not set. -/
def bracedValue (environment : Environment) (inside : List Char) : Option (List Char) :=
  let (name, fallback) := match cutDefault inside with
    | some ([], _) => (inside, none)
    | some (before, after) => (before, some after)
    | none => (inside, none)
  ((environment.lookup (String.ofList name)).map String.toList) <|> fallback

/-- The text with values in place of variables; `none` if a variable is not set. Two dollar signs mean
one, and a dollar sign that begins no variable means itself. -/
def substitute (environment : Environment) (text : List Char) : Option (List Char) :=
  match text with
  | [] => some []
  | '$' :: '$' :: rest => (substitute environment rest).map ('$' :: ·)
  | '$' :: '{' :: rest =>
    match Text.cutFirst '}' rest with
    | none => (substitute environment rest).map ("$\x7b".toList ++ ·)
    | some (inside, _) => do
      let value ← bracedValue environment inside
      (substitute environment (rest.drop (inside.length + 1))).map (value ++ ·)
  | '$' :: rest =>
    let name := rest.takeWhile Text.isWordPart
    if name.isEmpty then (substitute environment rest).map ('$' :: ·)
    else do
      let value ← environment.lookup (String.ofList name)
      (substitute environment (rest.drop name.length)).map (value.toList ++ ·)
  | c :: rest => (substitute environment rest).map (c :: ·)
termination_by text.length
decreasing_by all_goals simp only [List.length_cons, List.length_drop]; omega

def fromHome (environment : Environment) (text : List Char) : List Char :=
  match text, environment.lookup "HOME" with
  | '~' :: rest, some home =>
    if (rest.isEmpty || rest.head? == some '/') && !home.isEmpty then home.toList ++ rest else text
  | _, _ => text

/-- The path that is meant; `none` if a variable is not set. A tilde counts only if it is written, not
if it comes from a variable. -/
def expand? (environment : Environment) (written : String) : Option String :=
  (substitute environment written.toList).map fun text =>
    String.ofList (if written.toList.head? == some '~' then fromHome environment text else text)

end CallContext.Path
