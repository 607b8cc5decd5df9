import CallContext.Proofs.Diff.Blocks
import CallContext.Proofs.Diff.Hunk
import CallContext.Proofs.Diff.LineNumbers

/-!
Which methods the added lines of a hunk count for. A hunk that removes nothing shows lines of the new
file, and the names found for it can be read off the file: an added line counts for the method that is
declared on it, else for the one that is declared last above it, if that is in the hunk or not too far
above.
-/

namespace CallContext.Diff

open Collection Text

/-! ## Numbered lines -/

def nameAt (lines : List (List Char)) : Nat → Option String
  | 0 => none
  | above + 1 => lines[above]?.bind declaredName

def lastDeclared (lines : List (List Char)) : Nat → Option (Nat × String)
  | 0 => none
  | above + 1 =>
    match nameAt lines (above + 1) with
    | some name => some (above + 1, name)
    | none => lastDeclared lines above

/-- The method that an added line counts for, in a hunk that begins at the given line. -/
def methodAt (lines : List (List Char)) (start number : Nat) : Option String :=
  match nameAt lines number with
  | some name => some name
  | none =>
    ((lastDeclared lines (number - 1)).filter fun (above, _) =>
      start ≤ above || number ≤ above + 199).map (·.2)

def begunBy (lines : List (List Char)) (start number : Nat) : Option String :=
  ((lastDeclared lines number).filter fun (above, _) => start ≤ above).map (·.2)

variable {lines : List (List Char)}

theorem lastDeclared_le {number above : Nat} {name : String}
    (found : lastDeclared lines number = some (above, name)) : above ≤ number := by
  induction number with
  | zero => cases found
  | succ number ih =>
      rw [lastDeclared] at found
      split at found
      · exact Nat.le_of_eq (Prod.mk.inj (Option.some.inj found)).1.symm
      · exact Nat.le_succ_of_le (ih found)

theorem begunBy_of_lt {start number : Nat} (above : number < start) :
    begunBy lines start number = none := by
  rw [begunBy, Option.map_eq_none_iff, Option.filter_eq_none_iff]
  rintro ⟨line, name⟩ found
  have bound := lastDeclared_le found
  simp only [decide_eq_true_eq]
  omega

theorem begunBy_succ {start number : Nat} (inside : start ≤ number + 1) :
    begunBy lines start (number + 1) =
      (nameAt lines (number + 1)).or (begunBy lines start number) := by
  unfold begunBy
  rw [lastDeclared]
  cases nameAt lines (number + 1) with
  | none => rfl
  | some name => simp [inside]

theorem findSome?_take_reverse (count : Nat) {number : Nat} (inside : number ≤ lines.length) :
    ((lines.take number).reverse.take count).findSome? declaredName =
      ((lastDeclared lines number).filter fun (above, _) => number < above + count).map (·.2) := by
  induction number generalizing count with
  | zero => simp [lastDeclared]
  | succ number ih =>
      have known : nameAt lines (number + 1) = declaredName lines[number] := by
        rw [nameAt, List.getElem?_eq_getElem inside, Option.bind_some]
      cases count with
      | zero =>
          rw [List.take_zero, List.findSome?_nil, eq_comm, Option.map_eq_none_iff,
            Option.filter_eq_none_iff]
          rintro ⟨line, name⟩ found
          simpa using lastDeclared_le found
      | succ count =>
          rw [List.take_succ_eq_append_getElem inside, List.reverse_append, List.reverse_singleton,
            List.singleton_append, List.take_succ_cons, List.findSome?_cons, lastDeclared, known,
            ih count (Nat.le_of_succ_le inside)]
          cases declaredName lines[number] with
          | some name => simp
          | none => simp only [← Nat.add_assoc, Nat.add_lt_add_iff_right]

theorem declaredAbove_eq {number : Nat} (inside : number ≤ lines.length) :
    declaredAbove lines number =
      ((lastDeclared lines number).filter fun (above, _) => number < above + reach).map (·.2) := by
  rw [declaredAbove_eq_findSome?, findSome?_take_reverse reach inside]

theorem methodAt_eq {start number : Nat} (inside : number + 1 ≤ lines.length) :
    ((nameAt lines (number + 1)).or (begunBy lines start number)).or
      (declaredAbove lines (number + 1)) = methodAt lines start (number + 1) := by
  unfold methodAt
  rw [declaredAbove_eq inside, lastDeclared]
  cases nameAt lines (number + 1) with
  | some name => rfl
  | none =>
      rw [Option.none_or, begunBy, Nat.add_sub_cancel]
      cases lastDeclared lines number with
      | none => rfl
      | some found =>
          obtain ⟨above, name⟩ := found
          simp only [Option.filter_some]
          by_cases begun : start ≤ above
          · simp [begun]
          · have window : decide (number + 1 < above + reach) = decide (number + 1 ≤ above + 199) := by
              rw [decide_eq_decide, reach]
              omega
            simp only [begun, window, decide_false, Bool.false_or, Bool.false_eq_true, if_false,
              Option.map_none, Option.none_or]

/-! ## Hunks -/

namespace Hunk

structure Shows (hunk : Hunk) (lines : List (List Char)) : Prop where
  start_pos : 1 ≤ hunk.start
  unremoved : ∀ line ∈ hunk.lines, line.sign ≠ .removed
  plain : ∀ line ∈ hunk.lines, line.sign = .added → ¬ "++".toList <+: line.content
  contents : hunk.lines.map (·.content) <+: lines.drop (hunk.start - 1)

def addedFrom (number : Nat) : List HunkLine → List Nat
  | [] => []
  | line :: rest =>
    if line.sign = .added then number :: addedFrom (number + 1) rest else addedFrom (number + 1) rest

def names (hunk : Hunk) (lines : List (List Char)) : List String :=
  (addedFrom hunk.start hunk.lines).filterMap (methodAt lines hunk.start)

end Hunk

variable {read : String → Option String} {wanted : List String} {path : String}

def placeAt (path : String) (lines : List (List Char)) (start number : Nat) : Place :=
  ⟨some path, begunBy lines start number, some (number + 1)⟩

theorem additions_lines {shown : List HunkLine} (unremoved : ∀ line ∈ shown, line.sign ≠ .removed)
    (plain : ∀ line ∈ shown, line.sign = .added → ¬ "++".toList <+: line.content)
    {start number : Nat} (inside : start ≤ number + 1)
    (contents : shown.map (·.content) <+: (fileLines read path).drop number) :
    additions read wanted (placeAt path (fileLines read path) start number)
        (shown.map HunkLine.written) =
      ((Hunk.addedFrom (number + 1) shown).filterMap
        (methodAt (fileLines read path) start)).map fun name => (path, name) := by
  -- Line by line: the number moves on, and what has begun is read off the file up to there.
  induction shown generalizing number with
  | nil => rfl
  | cons line rest ih =>
      have kept : line.sign ≠ .removed := unremoved line List.mem_cons_self
      have kind : kindOf line.written = .code line.sign.mark line.content :=
        kindOf_written (plain line List.mem_cons_self) fun removed => absurd removed kept
      have short : number + 1 ≤ (fileLines read path).length := by
        have bound := contents.length_le
        rw [List.length_map, List.length_cons, List.length_drop] at bound
        omega
      rw [List.drop_eq_getElem_cons short, List.map_cons, List.cons_prefix_cons] at contents
      have named : nameIn line.content = nameAt (fileLines read path) (number + 1) := by
        rw [nameIn_eq, contents.1, nameAt, List.getElem?_eq_getElem short, Option.bind_some]
      have unsigned : line.sign.mark ≠ '-' := by
        cases sign : line.sign with
        | removed => exact absurd sign kept
        | added => decide
        | kept => decide
      have moved : (placeAt path (fileLines read path) start number).after wanted line.written =
          placeAt path (fileLines read path) start (number + 1) := by
        simp only [Place.after, Place.next, kind, placeAt, if_neg unsigned, named,
          begunBy_succ inside, Option.map_some]
      have added : (placeAt path (fileLines read path) start number).addition? read line.written =
          if line.sign = .added then
            (methodAt (fileLines read path) start (number + 1)).map fun name => (path, name)
          else none := by
        have sign : line.sign.mark = '+' ↔ line.sign = .added := by
          cases line.sign <;> decide
        simp only [Place.addition?, kind, placeAt, Place.method?, sign, named, Option.bind_some,
          methodAt_eq short]
      rw [List.map_cons, additions, moved, added,
        ih (fun other member => unremoved other (List.mem_cons_of_mem line member))
          (fun other member => plain other (List.mem_cons_of_mem line member))
          (Nat.le_succ_of_le inside) contents.2, Hunk.addedFrom]
      split_ifs
      · cases found : methodAt (fileLines read path) start (number + 1) <;> simp [found]
      · rfl

theorem Hunk.Shows.length_le {hunk : Hunk} (shows : hunk.Shows lines) (some : hunk.lines ≠ []) :
    hunk.start + hunk.lines.length ≤ lines.length + 1 := by
  have bound := shows.contents.length_le
  have counted := List.length_pos_iff.mpr some
  have start := shows.start_pos
  rw [List.length_map, List.length_drop] at bound
  omega

theorem additions_hunk {hunk : Hunk} (shows : hunk.Shows (fileLines read path))
    (countable : (fileLines read path).length < maxNumber) {place : Place}
    (inFile : place.file = some path) :
    additions read wanted place hunk.written =
      (hunk.names (fileLines read path)).map fun name => (path, name) := by
  have silent : place.addition? read hunk.header = none := by
    simp [Place.addition?, kindOf_header]
  rw [Hunk.written, additions, silent, Option.toList_none, List.nil_append]
  cases written : hunk.lines with
  | nil =>
      have nothing : hunk.names (fileLines read path) = [] := by
        rw [Hunk.names, written]
        rfl
      rw [nothing]
      rfl
  | cons first rest =>
      obtain ⟨number, start⟩ := Nat.exists_eq_add_of_le' shows.start_pos
      have contents := shows.contents
      rw [start, Nat.add_sub_cancel] at contents
      have fits : hunk.start ≤ maxNumber := by
        have bound := shows.length_le (by simp [written])
        omega
      have moved : place.after wanted hunk.header =
          placeAt path (fileLines read path) hunk.start number := by
        have fresh : begunBy (fileLines read path) (number + 1) number = none :=
          begunBy_of_lt (Nat.lt_succ_self number)
        simp only [Place.after, kindOf_header, inFile, hunkStart_header fits, placeAt, fresh, start]
      rw [← written, moved,
        additions_lines shows.unremoved shows.plain (Nat.le_of_eq start) contents, Hunk.names,
        start]

theorem kindOf_ne_block_of_mem_written {hunk : Hunk}
    (unremoved : ∀ line ∈ hunk.lines, line.sign ≠ .removed)
    (plain : ∀ line ∈ hunk.lines, line.sign = .added → ¬ "++".toList <+: line.content)
    {line : List Char} (member : line ∈ hunk.written) : kindOf line ≠ .block := by
  rcases List.mem_cons.mp member with rfl | inside
  · rw [kindOf_header]
    nofun
  · obtain ⟨shown, listed, rfl⟩ := List.mem_map.mp inside
    rw [kindOf_written (plain shown listed) fun removed => absurd removed (unremoved shown listed)]
    nofun

theorem kindOf_ne_header_of_mem_map_written {hunk : Hunk}
    (unremoved : ∀ line ∈ hunk.lines, line.sign ≠ .removed)
    (plain : ∀ line ∈ hunk.lines, line.sign = .added → ¬ "++".toList <+: line.content)
    {line : List Char} (member : line ∈ hunk.lines.map HunkLine.written) : kindOf line ≠ .header := by
  obtain ⟨shown, listed, rfl⟩ := List.mem_map.mp member
  rw [kindOf_written (plain shown listed) fun removed => absurd removed (unremoved shown listed)]
  nofun

theorem not_trapsIn_hunk {hunk : Hunk} (shows : hunk.Shows (fileLines read path))
    (countable : (fileLines read path).length < maxNumber) {place : Place}
    (inFile : place.file = some path) : trapsIn wanted place hunk.written = false := by
  have passes : place.traps hunk.header = false := by
    simp [Place.traps, kindOf_header]
  have moved : (place.after wanted hunk.header).nextLine = hunkStart hunk.header := by
    simp [Place.after, kindOf_header, inFile]
  rw [Hunk.written, trapsIn, passes, Bool.false_or]
  refine not_trapsIn_of_length_le
    (fun _ => kindOf_ne_header_of_mem_map_written shows.unremoved shows.plain) ?_
  intro number there
  rw [moved] at there
  rw [List.length_map]
  by_cases none : hunk.lines = []
  · rw [none]
    exact le_of_hunkStart there
  · have bound := shows.length_le none
    rw [hunkStart_header (by omega), Option.some_inj] at there
    omega

theorem additions_hunks {hunks : List Hunk} (shown : ∀ hunk ∈ hunks, hunk.Shows (fileLines read path))
    (countable : (fileLines read path).length < maxNumber) {place : Place}
    (inFile : place.file = some path) :
    additions read wanted place (hunks.flatMap Hunk.written) =
        ((hunks.flatMap (·.names (fileLines read path))).map fun name => (path, name)) ∧
      trapsIn wanted place (hunks.flatMap Hunk.written) = false := by
  induction hunks generalizing place with
  | nil => exact ⟨rfl, rfl⟩
  | cons hunk rest ih =>
      have shows := shown hunk List.mem_cons_self
      have stays : (hunk.written.foldl (Place.after wanted) place).file = some path := by
        rw [file_foldl_after, inFile]
        exact fun line => kindOf_ne_block_of_mem_written shows.unremoved shows.plain
      obtain ⟨added, passes⟩ := ih (fun other member => shown other (List.mem_cons_of_mem hunk member)) stays
      rw [List.flatMap_cons, additions_append, trapsIn_append, additions_hunk shows countable inFile,
        not_trapsIn_hunk shows countable inFile, added, passes, List.flatMap_cons, List.map_append]
      exact ⟨rfl, rfl⟩

/-! ## A single block -/

structure IsSingleBlock (path : String) (hunks : List Hunk) (lines preface opening : List (List Char)) :
    Prop where
  lines_eq : lines = preface ++ blockLine path :: opening ++ hunks.flatMap Hunk.written
  single : ∀ line ∈ preface, kindOf line ≠ .block
  opening_other : ∀ line ∈ opening, kindOf line = .other

theorem additions_outside {place : Place} (outside : place.file = none) {lines : List (List Char)}
    (single : ∀ line ∈ lines, kindOf line ≠ .block) :
    additions read wanted place lines = [] ∧ trapsIn wanted place lines = false := by
  induction lines generalizing place with
  | nil => exact ⟨rfl, rfl⟩
  | cons line rest ih =>
      have silent : place.addition? read line = none := by
        simp [Place.addition?, outside]
      have passes : place.traps line = false := by
        simp [Place.traps, outside]
      have still : (place.after wanted line).file = none := by
        rw [file_after (single line List.mem_cons_self), outside]
      rw [additions, trapsIn, silent, passes]
      exact ih still fun other member => single other (List.mem_cons_of_mem line member)

theorem additions_other {lines : List (List Char)} (other : ∀ line ∈ lines, kindOf line = .other)
    (place : Place) :
    additions read wanted place lines = [] ∧ trapsIn wanted place lines = false := by
  induction lines generalizing place with
  | nil => exact ⟨rfl, rfl⟩
  | cons line rest ih =>
      have kind := other line List.mem_cons_self
      have silent : place.addition? read line = none := by
        simp [Place.addition?, kind]
      have passes : place.traps line = false := by
        simp [Place.traps, kind]
      rw [additions, trapsIn, silent, passes]
      exact ih (fun next member => other next (List.mem_cons_of_mem line member)) _

theorem additions_singleBlock {hunks : List Hunk} {lines preface opening : List (List Char)}
    (block : IsSingleBlock path hunks lines preface opening) (solid : ∀ c ∈ path.toList, isBlank c = false)
    (requested : Path.normalize path ∈ wanted)
    (shown : ∀ hunk ∈ hunks, hunk.Shows (fileLines read (Path.normalize path)))
    (countable : (fileLines read (Path.normalize path)).length < maxNumber) :
    additions read wanted Place.start lines =
        ((hunks.flatMap (·.names (fileLines read (Path.normalize path)))).map
          fun name => (Path.normalize path, name)) ∧
      trapsIn wanted Place.start lines = false := by
  let entered : Place := ⟨some (Path.normalize path), none, none⟩
  have enters (place : Place) : place.after wanted (blockLine path) = entered := by
    simp [Place.after, kindOf_blockLine, blockPath_blockLine solid, requested, entered]
  have silent (place : Place) : place.addition? read (blockLine path) = none := by
    simp [Place.addition?, kindOf_blockLine]
  have passes (place : Place) : place.traps (blockLine path) = false := by
    simp [Place.traps, kindOf_blockLine]
  have inFile : (opening.foldl (Place.after wanted) entered).file = some (Path.normalize path) := by
    refine file_foldl_after (fun line member => ?_) wanted entered
    rw [block.opening_other line member]
    decide
  have before := @additions_outside read wanted Place.start rfl _ block.single
  have between := @additions_other read wanted _ block.opening_other entered
  have hunkwise := @additions_hunks read wanted _ hunks shown countable _ inFile
  rw [block.lines_eq, List.append_assoc, additions_append, trapsIn_append, before.1, before.2,
    List.nil_append, Bool.false_or, List.cons_append, additions, trapsIn, silent, passes, enters,
    additions_append, trapsIn_append, between.1, between.2, hunkwise.1, hunkwise.2]
  exact ⟨rfl, rfl⟩

theorem toList_recordAll_map (path : String) (names : List String) :
    (recordAll Table.empty (names.map fun name => (path, name))).toList =
      match names.eraseDups with
      | [] => []
      | names => [(path, names)] := by
  have keys : (names.map fun name => (path, name)).map (·.1) = names.map fun _ => path := by
    simp
  have all : namesOf path (names.map fun name => (path, name)) = names := by
    simp [namesOf, List.filter_map, Function.comp_def]
  rw [Table.toList_eq_filterMap_keys, keys_recordAll, keys]
  cases names with
  | nil => rfl
  | cons first rest =>
      have single : ((first :: rest).map fun _ => path).eraseDups = [path] :=
        eraseDups_eq_singleton (by simp) (by simp)
      rw [single, List.filterMap_cons, get?_recordAll, all, if_neg (List.cons_ne_nil first rest),
        List.eraseDups_cons]
      rfl

/-- The names that are found in a diff with one block, of a requested and readable file, whose hunks
remove nothing: for each added line in order the one that is declared on it, else the one that is declared
last above it, if that is in the hunk or among the 199 lines before. A name is found once, and without
any there is no entry for the file. Line numbers have 64 bits. -/
theorem scan_singleBlock (read : String → Option String) (files : List String) {diff path text : String}
    {hunks : List Hunk} {preface opening : List (List Char)}
    (block : IsSingleBlock path hunks (Text.lines diff.toList) preface opening)
    (solid : ∀ c ∈ path.toList, isBlank c = false)
    (requested : Path.normalize path ∈ files.map Path.normalize)
    (readable : read (Path.normalize path) = some text)
    (shown : ∀ hunk ∈ hunks, hunk.Shows (Text.lines text.toList))
    (countable : (Text.lines text.toList).length < maxNumber) :
    (scan read diff files).map (·.toList) =
      .ok (match (hunks.flatMap (·.names (Text.lines text.toList))).eraseDups with
        | [] => []
        | names => [(Path.normalize path, names)]) := by
  have lines : fileLines read (Path.normalize path) = Text.lines text.toList := by
    rw [fileLines, readable]
    rfl
  obtain ⟨added, passes⟩ :=
    additions_singleBlock block solid requested (lines ▸ shown) (lines ▸ countable)
  rw [lines] at added
  rw [scan_eq, scanTraps, passes, additionsOf, added]
  exact congrArg Except.ok (toList_recordAll_map _ _)

def runAndStopText : String :=
  "class A\n  public void run()\n    a();\n    b();\n  public void stop()\n    c();\n"

def runAndStopHunks : List Hunk :=
  [⟨3, 1, 3, 2, [], [⟨.kept, "    a();".toList⟩, ⟨.added, "    b();".toList⟩]⟩,
    ⟨4, 0, 5, 2, " class A".toList,
      [⟨.added, "  public void stop()".toList⟩, ⟨.added, "    c();".toList⟩]⟩]

def runAndStopDiff : String :=
  "diff --git a/A.java b/A.java\n--- a/A.java\n+++ b/A.java\n@@ -3,1 +3,2 @@\n     a();\n+    b();\n" ++
    "@@ -4,0 +5,2 @@ class A\n+  public void stop()\n+    c();\n"

theorem isSingleBlock_runAndStopDiff :
    IsSingleBlock "A.java" runAndStopHunks (Text.lines runAndStopDiff.toList) []
      ["--- a/A.java".toList, "+++ b/A.java".toList] where
  lines_eq := by decide +kernel
  single := by simp
  opening_other := by decide +kernel

theorem shows_runAndStopHunks :
    ∀ hunk ∈ runAndStopHunks, hunk.Shows (Text.lines runAndStopText.toList) := by
  intro hunk member
  refine ⟨?_, ?_, ?_, ?_⟩
  all_goals
    revert hunk
    decide +kernel

theorem scan_singleBlock_runAndStop :
    (IsSingleBlock "A.java" runAndStopHunks (Text.lines runAndStopDiff.toList) []
        ["--- a/A.java".toList, "+++ b/A.java".toList] ∧
      ∀ hunk ∈ runAndStopHunks, hunk.Shows (Text.lines runAndStopText.toList)) ∧
    (scan (fun _ => some runAndStopText) runAndStopDiff ["./A.java"]).map (·.toList) =
      .ok [("A.java", ["run", "stop"])] := by
  have solid : "A.java".toList.all fun c => isBlank c = false := by decide
  have found := scan_singleBlock (fun _ => some runAndStopText) ["./A.java"] isSingleBlock_runAndStopDiff
    (fun c member => by simpa using List.all_eq_true.mp solid c member) (by decide +kernel) rfl
    shows_runAndStopHunks (by decide +kernel)
  refine ⟨⟨isSingleBlock_runAndStopDiff, shows_runAndStopHunks⟩, ?_⟩
  rw [found]
  decide +kernel

end CallContext.Diff
