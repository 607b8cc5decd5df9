import CallContext.Diff.Scan
import Mathlib.Data.List.Basic

namespace CallContext.Diff

inductive LineKind where
  | block
  | header
  | code (sign : Char) (rest : List Char)
  | other
  deriving DecidableEq

def kindOf (line : List Char) : LineKind :=
  if startsWith "diff --git" line then .block
  else if startsWith "@@" line then .header
  else if startsWith "+++" line || startsWith "---" line then .other
  else match line with
    | [] => .other
    | sign :: rest => if sign = '+' ∨ sign = '-' ∨ sign = ' ' then .code sign rest else .other

def nameIn (rest : List Char) : Option String :=
  declaredName (Text.trim rest)

theorem step_eq (read : String → Option String) (wanted : List String) (progress : Progress)
    (line : List Char) :
    step read wanted progress line =
      match kindOf line, progress.place.file with
      | .block, _ =>
        .ok { progress with place := ⟨(blockPath line).filter wanted.contains, none, none⟩ }
      | .header, some path => .ok { progress with place := ⟨some path, none, hunkStart line⟩ }
      | .code sign rest, some path =>
        (progress.place.advance sign).map fun place =>
          hunkLine read { progress with place } path sign rest progress.place.nextLine
      | _, _ => .ok progress := by
  unfold step kindOf
  split_ifs with block header
  · rfl
  · cases progress.place.file <;> rfl
  · cases progress.place.file <;> rfl
  · cases line with
    | nil => cases progress.place.file <;> rfl
    | cons sign rest =>
        dsimp only
        by_cases signed : sign = '+' ∨ sign = '-' ∨ sign = ' '
        · cases progress.place.file <;> simp [signed]
        · cases progress.place.file <;> simp [signed]

theorem hunkLine_of_nameIn_eq_some {sign : Char} {rest : List Char} {name : String}
    (declared : nameIn rest = some name) (read : String → Option String) (progress : Progress)
    (path : String) (number : Option Nat) :
    hunkLine read progress path sign rest number =
      { progress with
        place := { progress.place with method := some name }
        found := if sign = '+' then record progress.found path name else progress.found } := by
  unfold nameIn at declared
  unfold hunkLine
  rw [declared]

theorem hunkLine_of_nameIn_eq_none {sign : Char} {rest : List Char}
    (declared : nameIn rest = none) (read : String → Option String) (progress : Progress)
    (path : String) (number : Option Nat) :
    hunkLine read progress path sign rest number =
      if sign = '+' then addedLine read progress path number else progress := by
  unfold nameIn at declared
  unfold hunkLine
  rw [declared]

namespace Place

def isFull (place : Place) (sign : Char) : Bool :=
  sign != '-' && place.nextLine.any (Text.maxNumber ≤ ·)

def next (place : Place) (sign : Char) : Place :=
  if sign = '-' then place else { place with nextLine := place.nextLine.map (· + 1) }

theorem advance_eq (place : Place) (sign : Char) :
    place.advance sign = if place.isFull sign then .error .overflow else .ok (place.next sign) := by
  obtain ⟨file, method, number⟩ := place
  unfold advance isFull next
  by_cases removed : sign = '-'
  · simp [removed]
  · cases number with
    | none => simp [removed, Except.map, pure, Except.pure]
    | some number =>
        by_cases fits : number < Text.maxNumber
        · simp [removed, numberAfter, fits, Except.map, Functor.map]
        · simp [removed, numberAfter, fits, Except.map, Functor.map]

def traps (place : Place) (line : List Char) : Bool :=
  match kindOf line, place.file with
  | .code sign _, some _ => place.isFull sign
  | _, _ => false

end Place

def Progress.after (read : String → Option String) (wanted : List String) (progress : Progress)
    (line : List Char) : Progress :=
  match kindOf line, progress.place.file with
  | .block, _ => { progress with place := ⟨(blockPath line).filter wanted.contains, none, none⟩ }
  | .header, some path => { progress with place := ⟨some path, none, hunkStart line⟩ }
  | .code sign rest, some path =>
    hunkLine read { progress with place := progress.place.next sign } path sign rest
      progress.place.nextLine
  | _, _ => progress

theorem step_eq_ite (read : String → Option String) (wanted : List String) (progress : Progress)
    (line : List Char) :
    step read wanted progress line =
      if progress.place.traps line then .error .overflow else .ok (progress.after read wanted line) := by
  rw [step_eq]
  unfold Place.traps Progress.after
  cases kindOf line with
  | code sign rest =>
      cases progress.place.file with
      | none => rfl
      | some path =>
          dsimp only
          rw [Place.advance_eq]
          split_ifs <;> rfl
  | block => rfl
  | header => cases progress.place.file <;> rfl
  | other => cases progress.place.file <;> rfl

end CallContext.Diff
