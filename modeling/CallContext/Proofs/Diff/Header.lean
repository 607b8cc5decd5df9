import CallContext.Proofs.Diff.AddedLine
import CallContext.Proofs.Path

/-!
The first line of a block. Its fourth word is taken for the path of the new file, so the line names the path
that is written in it exactly if that path has no white space. Of any other path only a piece is read, and
what the block adds is not found for the path.
-/

namespace CallContext.Diff

open Text

variable {path : String}

theorem exists_piece_of_blank (trimmed : IsTrimmed path.toList) {c : Char} (member : c ∈ path.toList)
    (blank : isBlank c) :
    ∃ piece : List Char, piece.length < path.toList.length ∧
      (words (blockLine path))[3]? = some piece := by
  obtain ⟨first, found⟩ := Option.isSome_iff_exists.mp
    (List.find?_isSome.mpr ⟨c, member, blank⟩ : (path.toList.find? isBlank).isSome)
  obtain ⟨opens, before, after, split, solid⟩ := List.find?_eq_some_iff_append.mp found
  have front : IsWord ("a/".toList ++ before) :=
    (isWord_of_all (by decide) (by decide)).append fun d inside => by simpa using solid d inside
  have rest : words after ≠ [] := by
    rcases List.eq_nil_or_concat' after with rfl | ⟨initial, last, rfl⟩
    · have ends := trimmed.2
      rw [split, List.getLast?_concat, Option.any_some, opens] at ends
      cases ends
    · have ends := trimmed.2
      rw [split, ← List.cons_append, ← List.append_assoc, List.getLast?_concat, Option.any_some] at ends
      exact words_ne_nil (by simp) ends
  obtain ⟨piece, pieces, read⟩ := List.exists_cons_of_ne_nil rest
  have spelled : blockLine path = "diff".toList ++ ' ' :: ("--git".toList ++
      ' ' :: (("a/".toList ++ before) ++ first :: (after ++ ' ' :: ("b/".toList ++ path.toList)))) := by
    simp [blockLine, split]
  refine ⟨piece, ?_, ?_⟩
  · have short : piece.length ≤ after.length := length_le_of_mem_words (by simp [read])
    rw [split, List.length_append, List.length_cons]
    omega
  · rw [spelled, words_append_blank (by decide), words_append_blank (by decide),
      words_append_blank opens, front.words_eq, words_append_blank (by decide), read]
    rfl

theorem blockPath_blockLine_iff (normal : Path.normalize path = path) :
    blockPath (blockLine path) = some path ↔ ∀ c ∈ path.toList, isBlank c = false := by
  constructor
  · intro read c member
    by_contra blank
    obtain ⟨piece, short, fourth⟩ := exists_piece_of_blank (Path.isTrimmed_of_normalize_eq normal)
      member (Bool.eq_true_of_not_eq_false blank)
    rw [blockPath, fourth, Option.map_some, Option.some_inj] at read
    have bound := Path.length_normalize_le (String.ofList ((dropStart? "b/".toList piece).getD piece))
    rw [read, String.toList_ofList] at bound
    have cut : ((dropStart? "b/".toList piece).getD piece).length ≤ piece.length := by
      cases dropped : dropStart? "b/".toList piece with
      | none => exact Nat.le_refl _
      | some after =>
          rw [Option.getD_some, dropStart?_eq_some dropped, List.length_append]
          exact Nat.le_add_left _ _
    omega
  · intro solid
    rw [blockPath_blockLine solid, normal]

theorem file_after_blockLine_iff (normal : Path.normalize path = path) {wanted : List String}
    (requested : path ∈ wanted) (place : Place) :
    (place.after wanted (blockLine path)).file = some path ↔
      ∀ c ∈ path.toList, isBlank c = false := by
  rw [← blockPath_blockLine_iff normal]
  simp [Place.after, kindOf_blockLine, Option.filter_eq_some_iff, requested]

variable {read : String → Option String} {wanted : List String} {place : Place} {name : String}
  {header content : List Char}

theorem kindOf_of_opens (opens : "@@".toList <+: header) : kindOf header = .header := by
  obtain ⟨rest, rfl⟩ := opens
  rfl

theorem additions_declaration (opens : "@@".toList <+: header)
    (declared : declaredName content = some name) (apart : ¬ "++".toList <+: content) :
    additions read wanted place [header, '+' :: content] =
      (place.file.map fun file => (file, name)).toList := by
  rw [← nameIn_eq] at declared
  cases inFile : place.file with
  | none => simp [additions, Place.addition?, Place.after, kindOf_of_opens opens, inFile]
  | some file =>
      simp [additions, Place.addition?, Place.after, Place.method?, kindOf_of_opens opens,
        kindOf_added apart, inFile, declared]

theorem additions_named (opens : "@@".toList <+: header) (named : "++".toList <+: content) :
    additions read wanted place [header, '+' :: content] = [] := by
  simp [additions, Place.addition?, kindOf_of_opens opens, kindOf_named named]

theorem trapsIn_added (opens : "@@".toList <+: header) :
    trapsIn wanted place [header, '+' :: content] ↔
      place.file.isSome ∧ hunkStart header = some maxNumber ∧ ¬ "++".toList <+: content := by
  have passes : place.traps header = false := by
    simp [Place.traps, kindOf_of_opens opens]
  rw [trapsIn, passes, Bool.false_or, trapsIn, trapsIn, Bool.or_false]
  by_cases named : "++".toList <+: content
  · have silent : (place.after wanted header).traps ('+' :: content) = false := by
      simp [Place.traps, kindOf_named named]
    simp only [silent, named, not_true, and_false, Bool.false_eq_true]
  · rw [and_iff_left named]
    cases inFile : place.file with
    | none => simp [Place.traps, Place.after, kindOf_of_opens opens, inFile]
    | some file =>
        have full : (hunkStart header).any (maxNumber ≤ ·) ↔ hunkStart header = some maxNumber := by
          cases start : hunkStart header with
          | none => simp
          | some number =>
              have bound := le_of_hunkStart start
              simp only [Option.any_some, decide_eq_true_eq, Option.some_inj]
              omega
        simp [Place.traps, Place.after, Place.isFull, kindOf_of_opens opens, kindOf_added named, inFile,
          full]

theorem namesOf_map_file (file : Option String) (path name : String) :
    namesOf path (file.map fun file => (file, name)).toList =
      if file = some path then [name] else [] := by
  cases file with
  | none => rfl
  | some file => by_cases same : file = path <;> simp [namesOf, same]

theorem namesOf_blockLine {files : List String} {diff : String} (normal : Path.normalize path = path)
    (requested : path ∈ files.map Path.normalize)
    (written : Text.lines diff.toList = [blockLine path, header, '+' :: content])
    (opens : "@@".toList <+: header) (declared : declaredName content = some name) :
    namesOf path (additionsOf read diff files) =
      if path.toList.any isBlank ∨ "++".toList <+: content then [] else [name] := by
  have silent : Place.start.addition? read (blockLine path) = none := by
    simp [Place.addition?, kindOf_blockLine]
  rw [additionsOf, written, additions, silent, Option.toList_none, List.nil_append]
  by_cases named : "++".toList <+: content
  · rw [additions_named opens named, if_pos (.inr named)]
    rfl
  · have entered := file_after_blockLine_iff normal requested Place.start
    rw [additions_declaration opens declared named, namesOf_map_file]
    by_cases spaced : path.toList.any isBlank
    · rw [if_neg (entered.not.mpr (by simpa using spaced)), if_pos (.inl spaced)]
    · rw [if_pos (entered.mpr (by simpa using spaced)), if_neg (not_or.mpr ⟨spaced, named⟩)]

theorem scanTraps_blockLine {files : List String} {diff : String}
    (written : Text.lines diff.toList = [blockLine path, header, '+' :: content])
    (opens : "@@".toList <+: header) :
    scanTraps diff files ↔
      (∃ file ∈ files.map Path.normalize, blockPath (blockLine path) = some file) ∧
        hunkStart header = some (2 ^ 64 - 1) ∧ ¬ "++".toList <+: content := by
  have passes : Place.start.traps (blockLine path) = false := by
    simp [Place.traps, kindOf_blockLine]
  have entered : (Place.start.after (files.map Path.normalize) (blockLine path)).file.isSome ↔
      ∃ file ∈ files.map Path.normalize, blockPath (blockLine path) = some file := by
    cases named : blockPath (blockLine path) with
    | none => simp [Place.after, kindOf_blockLine, named]
    | some file => simp [Place.after, kindOf_blockLine, named, Option.filter_some]
  rw [scanTraps, written, trapsIn, passes, Bool.false_or, trapsIn_added opens, entered]
  rfl

/-- The first line of a block names the path of a file exactly if that path has no white space: then an
added line that declares a method is found for the file, unless the line looks like one that names a file
itself; else it is not. The scan breaks off if the line belongs to a requested file and has the largest
number. -/
theorem scan_blockLine (read : String → Option String) {files : List String} {path diff name : String}
    {header content : List Char} (normal : Path.normalize path = path)
    (requested : path ∈ files.map Path.normalize)
    (written : Text.lines diff.toList = [blockLine path, header, '+' :: content])
    (opens : "@@".toList <+: header) (declared : declaredName content = some name) :
    (scan read diff files).map (·.get? path) =
      if (∃ file ∈ files.map Path.normalize, blockPath (blockLine path) = some file) ∧
          hunkStart header = some (2 ^ 64 - 1) ∧ ¬ "++".toList <+: content then
        .error .overflow
      else .ok (if path.toList.any isBlank ∨ "++".toList <+: content then none else some [name]) := by
  have traps := @scanTraps_blockLine path header content files diff written opens
  rw [scan_eq]
  by_cases trapped : scanTraps diff files
  · rw [if_pos trapped, if_pos (traps.mp trapped)]
    rfl
  · rw [if_neg trapped, if_neg (traps.not.mp trapped)]
    refine congrArg Except.ok ?_
    dsimp only
    rw [get?_recordAll, namesOf_blockLine normal requested written opens declared]
    by_cases lost : path.toList.any isBlank ∨ "++".toList <+: content
    · simp only [if_pos lost]
      rfl
    · simp only [if_neg lost]
      rfl

def declarationDiff (path : String) : String :=
  "diff --git a/" ++ path ++ " b/" ++ path ++ "\n@@ -1,1 +1,2 @@\n+    public void added();\n"

theorem scan_blockLine_plain :
    (Path.normalize "p/My.java" = "p/My.java" ∧
      Text.lines (declarationDiff "p/My.java").toList =
        [blockLine "p/My.java", "@@ -1,1 +1,2 @@".toList, '+' :: "    public void added();".toList]) ∧
    (scan (fun _ => none) (declarationDiff "p/My.java") ["./p/My.java"]).map (·.get? "p/My.java") =
      .ok (some ["added"]) := by
  have normal : Path.normalize "p/My.java" = "p/My.java" := by decide +kernel
  have written : Text.lines (declarationDiff "p/My.java").toList =
      [blockLine "p/My.java", "@@ -1,1 +1,2 @@".toList, '+' :: "    public void added();".toList] := by
    decide +kernel
  have declared : declaredName "    public void added();".toList = some "added" := by decide +kernel
  have found := @scan_blockLine (fun _ => none) ["./p/My.java"] _ _ _ _ _ normal (by decide +kernel)
    written (by decide) declared
  have number : hunkStart "@@ -1,1 +1,2 @@".toList = some 1 := by decide +kernel
  refine ⟨⟨normal, written⟩, ?_⟩
  rw [found, number]
  decide +kernel

theorem scan_blockLine_spaced :
    ¬ ∀ (read : String → Option String) (files : List String) (path diff name : String)
      (header content : List Char),
      path ≠ "" → '\n' ∉ path.toList → Path.normalize path = path → path ∈ files.map Path.normalize →
      Text.lines diff.toList = [blockLine path, header, '+' :: content] → "@@".toList <+: header →
      declaredName content = some name → ¬ "++".toList <+: content →
      hunkStart header ≠ some (2 ^ 64 - 1) →
        (scan read diff files).map (·.get? path) = .ok (some [name]) := by
  intro named
  have found := named (fun _ => none) ["p/My File.java"] "p/My File.java"
    (declarationDiff "p/My File.java") "added" "@@ -1,1 +1,2 @@".toList
    "    public void added();".toList (by decide) (by decide) (by decide +kernel) (by decide +kernel)
    (by decide +kernel) (by decide) (by decide +kernel) (by decide) (by decide +kernel)
  have lost : (scan (fun _ => none) (declarationDiff "p/My File.java") ["p/My File.java"]).map
      (·.get? "p/My File.java") = .ok none := by
    decide +kernel
  rw [lost] at found
  cases found

end CallContext.Diff
