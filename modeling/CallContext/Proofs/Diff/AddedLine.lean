import CallContext.Proofs.Diff.Attribution

/-!
What an added line of a method body says has no part in reading a diff, with one exception: if it begins
with two plus signs, the line of the diff looks like one that names a file, and it is passed over as if
it were not there.
-/

namespace CallContext.Diff

open Text

variable {read : String → Option String} {wanted : List String} {content replacement : List Char}

theorem kindOf_added (apart : ¬ "++".toList <+: content) :
    kindOf ('+' :: content) = .code '+' content :=
  @kindOf_written ⟨.added, content⟩ (fun _ => apart) nofun

theorem kindOf_named (named : "++".toList <+: content) : kindOf ('+' :: content) = .other := by
  obtain ⟨rest, rfl⟩ := named
  rfl

theorem step_named (named : "++".toList <+: content) (progress : Progress) :
    step read wanted progress ('+' :: content) = .ok progress := by
  rw [step_eq, kindOf_named named]

theorem step_added (apart : ¬ "++".toList <+: content) (plain : declaredName content = none)
    (progress : Progress) :
    step read wanted progress ('+' :: content) =
      match progress.place.file with
      | none => .ok progress
      | some path =>
        (progress.place.advance '+').map fun place =>
          addedLine read { progress with place } path progress.place.nextLine := by
  rw [step_eq, kindOf_added apart]
  cases progress.place.file with
  | none => rfl
  | some path =>
      rw [← nameIn_eq] at plain
      simp only [hunkLine_of_nameIn_eq_none plain, if_true]

/-- An added line that looks like no declaration can be replaced by another such line without changing
what is read from a diff, and it is read as an added line and counted, unless one of them begins with two
plus signs. A line that does is read as if it were left out. -/
theorem scanWith_addedLine (read : String → Option String) (seen : Table String (List (List Char)))
    (files : List String) {diff other : String} {before after : List (List Char)}
    {content replacement : List Char}
    (written : Text.lines diff.toList = before ++ ('+' :: content) :: after)
    (rewritten : Text.lines other.toList = before ++ ('+' :: replacement) :: after)
    (plain : declaredName content = none) (plainToo : declaredName replacement = none) :
    (¬ "++".toList <+: content → ¬ "++".toList <+: replacement →
      scanWith read seen other files = scanWith read seen diff files) ∧
    (¬ "++".toList <+: content → ∀ progress path, progress.place.file = some path →
      step read (files.map Path.normalize) progress ('+' :: content) =
        (progress.place.advance '+').map fun place =>
          addedLine read { progress with place } path progress.place.nextLine) ∧
    ("++".toList <+: content → ∀ shorter : String, Text.lines shorter.toList = before ++ after →
      scanWith read seen diff files = scanWith read seen shorter files) := by
  refine ⟨fun apart apartToo => ?_, fun apart progress path inFile => ?_, fun named shorter left => ?_⟩
  · have same (progress : Progress) : step read (files.map Path.normalize) progress ('+' :: replacement) =
        step read (files.map Path.normalize) progress ('+' :: content) := by
      rw [step_added apart plain, step_added apartToo plainToo]
    rw [scanWith, scanWith, written, rewritten]
    simp only [List.foldlM_append, List.foldlM_cons, same]
  · rw [step_added apart plain, inFile]
  · rw [scanWith, scanWith, written, left]
    simp only [List.foldlM_append, List.foldlM_cons, step_named named]
    rfl

def countingHunk (line : String) : Hunk :=
  ⟨1, 4, 1, 5, [], [⟨.kept, "class A \x7b".toList⟩, ⟨.kept, "    public void run() \x7b".toList⟩] ++
    ⟨.added, line.toList⟩ :: [⟨.kept, "    \x7d".toList⟩, ⟨.kept, "\x7d".toList⟩]⟩

def countingDiff (line : String) : String :=
  "diff --git a/A.java b/A.java\n--- a/A.java\n+++ b/A.java\n@@ -1,4 +1,5 @@\n class A \x7b\n" ++
    "     public void run() \x7b\n+" ++ line ++ "\n     \x7d\n \x7d\n"

def countingStart : List (List Char) :=
  ["diff --git a/A.java b/A.java".toList, "--- a/A.java".toList, "+++ b/A.java".toList,
    "@@ -1,4 +1,5 @@".toList, " class A \x7b".toList, "     public void run() \x7b".toList]

def countingEnd : List (List Char) :=
  ["     \x7d".toList, " \x7d".toList]

theorem lines_countingDiff :
    ∀ line ∈ ["count++;", "count--;", "++count;"],
      Text.lines (countingDiff line).toList = countingStart ++ ('+' :: line.toList) :: countingEnd := by
  decide +kernel

theorem scanWith_addedLine_counting :
    scanWith (fun _ => none) Table.empty (countingDiff "count--;") ["A.java"] =
      scanWith (fun _ => none) Table.empty (countingDiff "count++;") ["A.java"] := by
  have written := lines_countingDiff "count++;" (by simp)
  have rewritten := lines_countingDiff "count--;" (by simp)
  exact (scanWith_addedLine (fun _ => none) Table.empty ["A.java"] written rewritten
    (by decide +kernel) (by decide +kernel)).1 (by decide) (by decide)

theorem isSingleBlock_countingDiff {line : String}
    (lines : Text.lines (countingDiff line).toList =
      countingStart ++ ('+' :: line.toList) :: countingEnd) :
    IsSingleBlock "A.java" [countingHunk line] (Text.lines (countingDiff line).toList) []
      ["--- a/A.java".toList, "+++ b/A.java".toList] where
  lines_eq := by
    have start : countingStart = blockLine "A.java" :: ["--- a/A.java".toList, "+++ b/A.java".toList] ++
        (countingHunk line).written.take 3 := by
      change countingStart = _ ++ (countingHunk "").written.take 3
      decide +kernel
    rw [lines, start, List.flatMap_singleton]
    rfl
  single := by simp
  opening_other := by decide +kernel

theorem scan_addedLine_lost :
    ¬ ∀ (read : String → Option String) (files : List String) (diff other path : String)
      (hunk : Hunk) (opening : List (List Char)) (before after : List HunkLine)
      (content replacement : List Char),
      path ∈ files → hunk.lines = before ++ ⟨.added, content⟩ :: after → hunk.IsCounted →
      IsSingleBlock path [hunk] (Text.lines diff.toList) [] opening →
      IsSingleBlock path [{ hunk with lines := before ++ ⟨.added, replacement⟩ :: after }]
        (Text.lines other.toList) [] opening →
      declaredName content = none → declaredName replacement = none →
        scan read other files = scan read diff files := by
  intro unchanged
  have counted := lines_countingDiff "count++;" (by simp)
  have uncounted := lines_countingDiff "++count;" (by simp)
  have same := unchanged (fun _ => none) ["A.java"] (countingDiff "count++;") (countingDiff "++count;")
    "A.java" (countingHunk "count++;") ["--- a/A.java".toList, "+++ b/A.java".toList] _ _
    "count++;".toList "++count;".toList (by simp) rfl (by decide +kernel)
    (isSingleBlock_countingDiff counted) (isSingleBlock_countingDiff uncounted) (by decide +kernel)
    (by decide +kernel)
  have found : (scan (fun _ => none) (countingDiff "count++;") ["A.java"]).map (·.get? "A.java") =
      .ok (some ["run"]) := by
    rw [scan, scanWith, counted]
    decide +kernel
  have lost : (scan (fun _ => none) (countingDiff "++count;") ["A.java"]).map (·.get? "A.java") =
      .ok none := by
    rw [scan, scanWith, uncounted]
    decide +kernel
  rw [same, found] at lost
  cases lost

end CallContext.Diff
