import CallContext.Collection.Table
import CallContext.Diff.Declaration
import CallContext.Path
import CallContext.Text.Lines
import CallContext.Text.Numeral

/-!
Reading from a unified diff which methods of some files it changes.

Within a block of the diff, a line that looks like the declaration of a method begins that method, up
to the next one or the end of the hunk. Added lines belong to the method that has begun; before any
has begun in a hunk, to the nearest declaration above them in the new file.
-/

namespace CallContext

abbrev ChangedMethods := Table String (List String)

namespace Diff

/-- How many lines are looked at for the declaration above a line, that line included. -/
def reach : Nat := 200

inductive Trap where
  /-- Line numbers have 64 bits, and the line after one with the largest number has none. -/
  | overflow
  deriving DecidableEq, Repr

def Trap.message : Trap → String
  | overflow => "attempt to add with overflow"

structure Place where
  /-- The path of the block, if its methods are wanted. -/
  file : Option String
  method : Option String
  nextLine : Option Nat
  deriving DecidableEq, Repr

namespace Place

def start : Place := ⟨none, none, none⟩

def numberAfter (number : Nat) : Except Trap Nat :=
  if number < Text.maxNumber then .ok (number + 1) else .error .overflow

/-- The place behind a line of a hunk with the given sign. Removed lines are not lines of the new file. -/
def advance (place : Place) (sign : Char) : Except Trap Place :=
  if sign = '-' then .ok place
  else (place.nextLine.mapM numberAfter).map fun nextLine => { place with nextLine }

end Place

structure Progress where
  place : Place
  seen : Table String (List (List Char))
  found : ChangedMethods

def record (found : ChangedMethods) (path name : String) : ChangedMethods :=
  found.alter path fun names =>
    let known := names.getD []
    if known.contains name then known else known ++ [name]

def blockPath (line : List Char) : Option String :=
  ((Text.words line)[3]?).map fun written =>
    Path.normalize (String.ofList ((Text.dropStart? "b/".toList written).getD written))

def beforeMark : List Char → List Char
  | [] => []
  | '@' :: '@' :: _ => []
  | c :: rest => c :: beforeMark rest

def hunkStart (line : List Char) : Option Nat := do
  let (_, range) ← Text.cutFirst '+' line
  let trimmed := Text.trim (beforeMark range)
  Text.readNumber (Text.trim (trimmed.takeWhile (· != ',')))

/-- The positions of the lines that are looked at from a numbered line upwards, in a file of so many
lines. A number beyond the last line means the last line. -/
def window (count number : Nat) : List Nat :=
  let last := min number count - 1
  let first := last - (reach - 1)
  (List.range' first (last + 1 - first)).reverse

def declaredAbove (lines : List (List Char)) (number : Nat) : Option String :=
  if lines.isEmpty || number == 0 then none
  else (window lines.length number).findSome? fun position => lines[position]?.bind declaredName

def linesOf (read : String → Option String) (seen : Table String (List (List Char)))
    (path : String) : List (List Char) × Table String (List (List Char)) :=
  match seen.get? path with
  | some lines => (lines, seen)
  | none =>
    let lines := ((read path).map fun text => Text.lines text.toList).getD []
    (lines, seen.put path lines)

def addedLine (read : String → Option String) (progress : Progress) (path : String)
    (number : Option Nat) : Progress :=
  match progress.place.method, number with
  | some name, _ => { progress with found := record progress.found path name }
  | none, some line =>
    let (lines, seen) := linesOf read progress.seen path
    match declaredAbove lines line with
    | some name => { progress with seen, found := record progress.found path name }
    | none => { progress with seen }
  | none, none => progress

/-- Reads a line of a hunk, the sign that it begins with and what follows, once its number has been
counted. -/
def hunkLine (read : String → Option String) (progress : Progress) (path : String) (sign : Char)
    (rest : List Char) (number : Option Nat) : Progress :=
  match declaredName (Text.trim rest) with
  | some name =>
    { progress with
      place := { progress.place with method := some name }
      found := if sign = '+' then record progress.found path name else progress.found }
  | none => if sign = '+' then addedLine read progress path number else progress

def startsWith (text : String) (line : List Char) : Bool :=
  text.toList.isPrefixOf line

def step (read : String → Option String) (wanted : List String) (progress : Progress)
    (line : List Char) : Except Trap Progress :=
  if startsWith "diff --git" line then
    .ok { progress with place := { Place.start with file := (blockPath line).filter wanted.contains } }
  else match progress.place.file with
    | none => .ok progress
    | some path =>
      if startsWith "@@" line then
        .ok { progress with place := ⟨some path, none, hunkStart line⟩ }
      -- The names of the files, or a changed line that begins with two more of its sign.
      else if startsWith "+++" line || startsWith "---" line then .ok progress
      else match line with
        | [] => .ok progress
        | sign :: rest =>
          if sign = '+' ∨ sign = '-' ∨ sign = ' ' then
            (progress.place.advance sign).map fun place =>
              hunkLine read { progress with place } path sign rest progress.place.nextLine
          else .ok progress

/-- Reads a diff after some files have been looked into; `read` gives the text of a file of the new
state. -/
def scanWith (read : String → Option String) (seen : Table String (List (List Char)))
    (diff : String) (files : List String) : Except Trap Progress :=
  (Text.lines diff.toList).foldlM (step read (files.map Path.normalize))
    ⟨Place.start, seen, Table.empty⟩

def scan (read : String → Option String) (diff : String) (files : List String) :
    Except Trap ChangedMethods :=
  (scanWith read Table.empty diff files).map (·.found)

end Diff

end CallContext
