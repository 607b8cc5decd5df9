import CallContext.Proofs.Diff.Declaration
import CallContext.Proofs.Diff.Line
import CallContext.Proofs.Text.Blank
import CallContext.Proofs.Text.Cut
import CallContext.Proofs.Text.Numeral
import CallContext.Proofs.Text.Words

namespace CallContext

namespace Diff

open Text

inductive Sign where
  | added
  | removed
  | kept
  deriving DecidableEq

def Sign.mark : Sign → Char
  | .added => '+'
  | .removed => '-'
  | .kept => ' '

structure HunkLine where
  sign : Sign
  content : List Char
  deriving DecidableEq

def HunkLine.written (line : HunkLine) : List Char :=
  line.sign.mark :: line.content

structure Hunk where
  oldStart : Nat
  oldCount : Nat
  start : Nat
  count : Nat
  heading : List Char
  lines : List HunkLine

namespace Hunk

variable (hunk : Hunk)

def oldRange : List Char :=
  '@' :: '@' :: ' ' :: '-' :: (numeralOf hunk.oldStart ++ ',' :: (numeralOf hunk.oldCount ++ [' ']))

def range : List Char :=
  numeralOf hunk.start ++ ',' :: numeralOf hunk.count

/-- The first line of a hunk: `@@ -a,b +c,d @@` and the heading. -/
def header : List Char :=
  hunk.oldRange ++ '+' :: (hunk.range ++ [' '] ++ '@' :: '@' :: hunk.heading)

def written : List (List Char) :=
  hunk.header :: hunk.lines.map HunkLine.written

def IsCounted : Prop :=
  hunk.oldCount = hunk.lines.countP (·.sign ≠ .added) ∧
    hunk.count = hunk.lines.countP (·.sign ≠ .removed)

instance : Decidable hunk.IsCounted :=
  inferInstanceAs (Decidable (_ ∧ _))

end Hunk

def blockLine (path : String) : List Char :=
  ("diff --git a/" ++ path ++ " b/" ++ path).toList

theorem kindOf_header (hunk : Hunk) : kindOf hunk.header = .header := by
  have block : startsWith "diff --git" hunk.header = false := rfl
  have header : startsWith "@@" hunk.header = true := rfl
  simp [kindOf, block, header]

theorem beforeMark_append {before : List Char} (absent : '@' ∉ before) (after : List Char) :
    beforeMark (before ++ '@' :: '@' :: after) = before := by
  induction before with
  | nil => rfl
  | cons c rest ih =>
      obtain ⟨apart, absent⟩ := not_or.mp (List.mem_cons.not.mp absent)
      rw [List.cons_append, beforeMark, ih absent]
      intro _ same _
      exact apart same.symm

theorem hunkStart_header {hunk : Hunk} (fits : hunk.start ≤ maxNumber) :
    hunkStart hunk.header = some hunk.start := by
  have noPlus : '+' ∉ hunk.oldRange := by
    simp [Hunk.oldRange, not_mem_numeralOf]
  have noMark : '@' ∉ hunk.range ++ [' '] := by
    simp [Hunk.range, not_mem_numeralOf]
  have solid : ∀ c ∈ hunk.range, isBlank c = false := by
    intro c member
    rcases List.mem_append.mp member with first | rest
    · exact solid_numeralOf _ c first
    · rcases List.mem_cons.mp rest with rfl | second
      · decide
      · exact solid_numeralOf _ c second
  have digits : ∀ c ∈ numeralOf hunk.start, (c != ',') = true := by
    intro c member
    rw [bne_iff_ne]
    rintro rfl
    exact not_mem_numeralOf (by decide) _ member
  have number : hunk.range.takeWhile (· != ',') = numeralOf hunk.start := by
    rw [Hunk.range, List.takeWhile_append_of_pos digits]
    simp
  rw [hunkStart, Hunk.header, cutFirst_append noPlus]
  simp only [Option.bind_eq_bind, Option.bind_some]
  rw [beforeMark_append noMark, trim_concat_blank (by decide) solid, number,
    trim_of_solid (solid_numeralOf _), readNumber_numeralOf fits]

theorem kindOf_blockLine (path : String) : kindOf (blockLine path) = .block := by
  have block : startsWith "diff --git" (blockLine path) = true := by
    simp [startsWith, blockLine]
  simp [kindOf, block]

theorem blockPath_blockLine {path : String} (solid : ∀ c ∈ path.toList, isBlank c = false) :
    blockPath (blockLine path) = some (Path.normalize path) := by
  have word {start : List Char} (isWord : IsWord start) :
      words (start ++ path.toList) = [start ++ path.toList] :=
    (isWord.append solid).words_eq
  have spelled : blockLine path = "diff".toList ++ ' ' :: ("--git".toList ++
      ' ' :: (("a/".toList ++ path.toList) ++ ' ' :: ("b/".toList ++ path.toList))) := by
    simp [blockLine]
  have read : words (blockLine path) =
      ["diff".toList, "--git".toList, "a/".toList ++ path.toList, "b/".toList ++ path.toList] := by
    rw [spelled, words_append_blank (by decide), words_append_blank (by decide),
      words_append_blank (by decide), word (isWord_of_all (by decide) (by decide)),
      word (isWord_of_all (by decide) (by decide))]
    rfl
  rw [blockPath, read]
  simp only [List.getElem?_cons_succ, List.getElem?_cons_zero, Option.map_some]
  rw [dropStart?_append, Option.getD_some, String.ofList_toList]

theorem kindOf_written {line : HunkLine}
    (added : line.sign = .added → ¬ "++".toList <+: line.content)
    (removed : line.sign = .removed → ¬ "--".toList <+: line.content) :
    kindOf line.written = .code line.sign.mark line.content := by
  obtain ⟨sign, content⟩ := line
  cases sign with
  | added =>
      have plain := added rfl
      rw [← List.isPrefixOf_iff_prefix] at plain
      simp_all [kindOf, HunkLine.written, Sign.mark, startsWith, List.isPrefixOf]
  | removed =>
      have plain := removed rfl
      rw [← List.isPrefixOf_iff_prefix] at plain
      simp_all [kindOf, HunkLine.written, Sign.mark, startsWith, List.isPrefixOf]
  | kept => simp [kindOf, HunkLine.written, Sign.mark, startsWith, List.isPrefixOf]

theorem nameIn_eq (content : List Char) : nameIn content = declaredName content :=
  declaredName_trim content

end Diff

end CallContext
