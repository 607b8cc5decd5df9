import CallContext.Glob

/-!
Reading globs. A question mark is one byte and a star any number of them; two stars that are a whole
component of a path stand for directories; square brackets hold ranges, and curly brackets globs to
choose from; a backslash takes the special meaning off a character.
-/

namespace CallContext.Glob

namespace Reader

def literal (c : Char) : List Token :=
  (String.utf8EncodeChar c).map .byte

/-- The ranges of bytes that a range of characters stands for. Of characters with several bytes the
last one of the first and the first one of the last delimit a range. -/
def byteRanges (low high : Char) : List (UInt8 × UInt8) :=
  let first := String.utf8EncodeChar low
  let last := String.utf8EncodeChar high
  if low = high then first.map fun b => (b, b)
  else (first.dropLast.map fun b => (b, b)) ++ (first.getLast?.toList.zip last.head?.toList) ++
    (last.tail.map fun b => (b, b))

/-- The rest of a class, after ranges that have been read, last first. The flags tell whether
nothing has been read, and whether a dash has just been read that may continue the last range. -/
def classBody (first dash : Bool) : List (Char × Char) → List Char →
    Option (List (Char × Char) × List Char)
  | _, [] => none
  | ranges, c :: rest =>
    if c = ']' && !first then some ((if dash then ('-', '-') :: ranges else ranges).reverse, rest)
    else if c = '-' && !first && !dash then classBody false true ranges rest
    else match dash, ranges with
      | true, (low, _) :: others =>
        if c < low then none else classBody false false ((low, c) :: others) rest
      | _, _ => classBody false false ((c, c) :: ranges) rest

def characterClass (text : List Char) : Option (Token × List Char) :=
  let (negated, body) := match text with
    | '!' :: rest => (true, rest)
    | '^' :: rest => (true, rest)
    | _ => (false, text)
  (classBody true false [] body).map fun (ranges, rest) =>
    (.range negated (ranges.flatMap fun (low, high) => byteRanges low high), rest)

/-- A choice that has been opened: the parts before it, last first, and its finished globs, last
first. -/
structure Opened where
  before : List Token
  finished : List (List Token)

/-- The parts before two stars, last first, together with what the stars stand for; and what follows
them. The character before the stars is given, and whether they are inside a choice. -/
def twoStars (previous : Option Char) (inside : Bool) (before : List Token) (text : List Char) :
    List Token × List Char :=
  let plain := (.star :: .star :: before, text)
  match before with
  | [] => match text with
    | [] => ([.leadingDirectories], [])
    | '/' :: rest => ([.leadingDirectories], rest)
    | _ => plain
  | last :: earlier =>
    if previous != some '/' then plain
    else match last, text with
      | .leadingDirectories, [] => (before, [])
      | .leadingDirectories, '/' :: rest => (before, rest)
      | .contents, [] => (before, [])
      | .contents, '/' :: rest => (before, rest)
      | _, [] => (.contents :: earlier, [])
      | _, '/' :: rest => (.innerDirectories :: earlier, rest)
      | _, c :: _ =>
        if inside && (c = ',' || c = '}') then
          match last with
          | .leadingDirectories => (before, text)
          | .contents => (before, text)
          | _ => (.contents :: earlier, text)
        else plain

def parts : Nat → Option Char → List Opened → List Token → List Char → Option (List Token)
  | 0, _, _, _, _ => none
  | _ + 1, _, [], before, [] => some before.reverse
  | _ + 1, _, _ :: _, _, [] => none
  | limit + 1, previous, opened, before, c :: rest =>
    match c with
    | '?' => parts limit (some c) opened (.anyByte :: before) rest
    | '*' => match rest with
      | '*' :: after =>
        let (found, remaining) := twoStars previous (!opened.isEmpty) before after
        let consumedSlash := remaining.length < after.length
        parts limit (some (if consumedSlash then '/' else '*')) opened found remaining
      | _ => parts limit (some c) opened (.star :: before) rest
    | '[' => match characterClass rest with
      | some (found, remaining) => parts limit (some ']') opened (found :: before) remaining
      | none => none
    | '{' => parts limit (some c) (⟨before, []⟩ :: opened) [] rest
    | '}' => match opened with
      | [] => none
      | innermost :: outer =>
        let alternatives := (before.reverse :: innermost.finished).reverse
        parts limit (some c) outer (.choice alternatives :: innermost.before) rest
    | ',' => match opened with
      | [] => parts limit (some c) [] ((literal c).reverse ++ before) rest
      | innermost :: outer =>
        parts limit (some c)
          (⟨innermost.before, before.reverse :: innermost.finished⟩ :: outer) [] rest
    | '\\' => match rest with
      | [] => none
      | escaped :: after =>
        parts limit (some escaped) opened ((literal escaped).reverse ++ before) after
    | _ => parts limit (some c) opened ((literal c).reverse ++ before) rest

end Reader

def parse? (text : String) : Option Glob :=
  (Reader.parts (text.length + 1) none [] [] text.toList).map fun tokens => ⟨tokens⟩

end CallContext.Glob
