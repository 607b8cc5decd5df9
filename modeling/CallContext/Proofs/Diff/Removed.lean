import CallContext.Proofs.Diff.Additions

/-!
Removed lines of a diff. Such a line adds no name and has no number in the new file, but if it looks
like a declaration, its method begins there as on any other line. It can therefore be left out of the
diff just as well, unless added lines further on in its hunk are taken for lines of that method.
-/

namespace CallContext.Diff

/-- Whether an added line among these belongs to the method that has begun before them. -/
def usesMethod : List (List Char) → Bool
  | [] => false
  | line :: rest =>
    match kindOf line with
    | .block | .header => false
    | .code sign code => (nameIn code).isNone && (sign == '+' || usesMethod rest)
    | .other => usesMethod rest

/-- Whether a line begins a method that an added line after it belongs to. -/
def isNeeded (line : List Char) (rest : List (List Char)) : Bool :=
  match kindOf line with
  | .code _ code => (nameIn code).isSome && usesMethod rest
  | _ => false

/-- The lines of a diff without those removed lines of hunks that are dropped. A line is chosen by what
it is and by the lines after it. -/
def withoutRemoved (drop : List Char → List (List Char) → Bool) :
    Bool → List (List Char) → List (List Char)
  | _, [] => []
  | inHunk, line :: rest =>
    match kindOf line with
    | .block => line :: withoutRemoved drop false rest
    | .header => line :: withoutRemoved drop true rest
    | _ =>
      if inHunk = true ∧ line.head? = some '-' ∧ drop line rest = true then
        withoutRemoved drop inHunk rest
      else line :: withoutRemoved drop inHunk rest

theorem kindOf_removed {line : List Char} (removed : line.head? = some '-') :
    kindOf line = .other ∨ ∃ code, kindOf line = .code '-' code := by
  obtain ⟨code, rfl⟩ := List.head?_eq_some_iff.mp removed
  have noBlock : startsWith "diff --git" ('-' :: code) = false := rfl
  have noHeader : startsWith "@@" ('-' :: code) = false := rfl
  by_cases dashes : (startsWith "+++" ('-' :: code) || startsWith "---" ('-' :: code)) = true
  · exact .inl (by simp [kindOf, noBlock, noHeader, dashes])
  · exact .inr ⟨code, by simp [kindOf, noBlock, noHeader, dashes]⟩

def Progress.withMethod (progress : Progress) (method : Option String) : Progress :=
  { progress with place := { progress.place with method } }

inductive Agree (rest : List (List Char)) (progress : Progress) : Progress → Prop where
  | same : Agree rest progress progress
  | but (method : Option String)
      (unused : progress.place.file = none ∨ usesMethod rest = false) :
      Agree rest progress (progress.withMethod method)

variable {read : String → Option String} {wanted : List String} {progress other : Progress}
  {line : List Char} {rest : List (List Char)}

theorem Agree.after (agree : Agree (line :: rest) progress other) :
    Agree rest (progress.after read wanted line) (other.after read wanted line) := by
  cases agree with
  | same => exact .same
  | but method unused =>
      have file : (progress.withMethod method).place.file = progress.place.file := rfl
      have number : (progress.withMethod method).place.nextLine = progress.place.nextLine := rfl
      have next (sign : Char) : (progress.withMethod method).place.next sign =
          { progress.place.next sign with method } := by
        unfold Place.next
        split_ifs <;> rfl
      rw [Progress.after, Progress.after, file]
      cases kind : kindOf line with
      | block => exact .same
      | header =>
          cases inFile : progress.place.file with
          | none => exact .but method (.inl inFile)
          | some path => exact .same
      | other => exact .but method (by simpa [usesMethod, kind] using unused)
      | code sign code =>
          cases inFile : progress.place.file with
          | none => exact .but method (.inl inFile)
          | some path =>
              cases declared : nameIn code with
              | some name =>
                  simp only [hunkLine_of_nameIn_eq_some declared, next]
                  exact .same
              | none =>
                  -- An added line would have used the method.
                  have unused : sign ≠ '+' ∧ usesMethod rest = false := by
                    simpa [usesMethod, kind, inFile, declared] using unused
                  simp only [hunkLine_of_nameIn_eq_none declared, if_neg unused.1, next]
                  exact .but method (.inr unused.2)

theorem Agree.drop (agree : Agree (line :: rest) progress other) (removed : line.head? = some '-')
    (unneeded : isNeeded line rest = false) :
    Agree rest (progress.after read wanted line) other := by
  rw [Progress.after]
  have stays : progress.place.next '-' = progress.place := rfl
  rcases kindOf_removed removed with kind | ⟨code, kind⟩
  · rw [kind]
    cases agree with
    | same => exact .same
    | but method unused => exact .but method (by simpa [usesMethod, kind] using unused)
  rw [kind]
  cases inFile : progress.place.file with
  | none =>
      cases agree with
      | same => exact .same
      | but method unused => exact .but method (.inl inFile)
  | some path =>
      cases declared : nameIn code with
      | some name =>
          have unused : usesMethod rest = false := by
            simpa [isNeeded, kind, declared] using unneeded
          simp only [hunkLine_of_nameIn_eq_some declared, stays]
          -- The method that begins here is begun in one run only, whatever was current before.
          cases agree with
          | same => exact .but progress.place.method (.inr unused)
          | but method _ => exact .but method (.inr unused)
      | none =>
          simp only [hunkLine_of_nameIn_eq_none declared, stays]
          cases agree with
          | same => exact .same
          | but method unused =>
              exact .but method (by simpa [usesMethod, kind, declared, inFile] using unused)

theorem Agree.traps (agree : Agree rest progress other) (line : List Char) :
    other.place.traps line = progress.place.traps line := by
  cases agree <;> rfl

theorem not_traps_of_removed (removed : line.head? = some '-') (place : Place) :
    place.traps line = false := by
  unfold Place.traps
  rcases kindOf_removed removed with kind | ⟨code, kind⟩
  · rw [kind]
  · rw [kind]
    cases place.file <;> rfl

theorem Agree.run (chosen : List Char → List (List Char) → Bool) {lines : List (List Char)}
    (inHunk : Bool) (agree : Agree lines progress other) :
    let shorter := withoutRemoved (fun line rest => chosen line rest && !isNeeded line rest) inHunk lines
    Agree [] (lines.foldl (Progress.after read wanted) progress)
        (shorter.foldl (Progress.after read wanted) other) ∧
      trapsIn wanted other.place shorter = trapsIn wanted progress.place lines := by
  induction lines generalizing inHunk progress other with
  | nil => exact ⟨agree, rfl⟩
  | cons line rest ih =>
      have both (inHunk : Bool) :
          let shorter := line :: withoutRemoved
            (fun line rest => chosen line rest && !isNeeded line rest) inHunk rest
          Agree [] ((line :: rest).foldl (Progress.after read wanted) progress)
              (shorter.foldl (Progress.after read wanted) other) ∧
            trapsIn wanted other.place shorter = trapsIn wanted progress.place (line :: rest) := by
        obtain ⟨ends, traps⟩ := ih inHunk (@Agree.after read wanted _ _ _ _ agree)
        refine ⟨ends, ?_⟩
        rw [trapsIn, trapsIn, agree.traps, ← @place_after read, ← @place_after read, traps]
      rw [withoutRemoved]
      split
      · exact both false
      · exact both true
      · split_ifs with dropped
        · have unneeded : isNeeded line rest = false := by
            have kept := dropped.2.2
            simp only [Bool.and_eq_true, Bool.not_eq_true'] at kept
            exact kept.2
          obtain ⟨ends, traps⟩ := ih inHunk (agree.drop dropped.2.1 unneeded)
          refine ⟨ends, ?_⟩
          rw [trapsIn, not_traps_of_removed dropped.2.1, Bool.false_or, ← @place_after read, traps]
        · exact both inHunk

theorem Agree.found_seen (agree : Agree rest progress other) :
    other.found = progress.found ∧ other.seen = progress.seen := by
  cases agree <;> exact ⟨rfl, rfl⟩

/-- A line that looks like a declaration begins its method whatever its sign is, and its name is found if
the line is added. Deleting removed lines from a diff changes neither the names that are found nor what is
remembered of the files, if the lines that begin a method for an added line are left. -/
theorem scanWith_withoutRemoved (read : String → Option String)
    (seen : Table String (List (List Char))) (files : List String)
    (chosen : List Char → List (List Char) → Bool) {diff shorter : String}
    (deleted : Text.lines shorter.toList =
      withoutRemoved (fun line rest => chosen line rest && !isNeeded line rest) false
        (Text.lines diff.toList)) :
    (∀ (progress : Progress) (path name : String) (line : List Char) (sign : Char) (code : List Char),
      progress.place.file = some path → kindOf line = .code sign code → nameIn code = some name →
        step read (files.map Path.normalize) progress line =
          (progress.place.advance sign).map fun place =>
            { progress with
              place := { place with method := some name }
              found := if sign = '+' then record progress.found path name else progress.found }) ∧
    (scanWith read seen shorter files).map (fun progress => (progress.found, progress.seen)) =
      (scanWith read seen diff files).map fun progress => (progress.found, progress.seen) := by
  constructor
  · intro progress path name line sign code inFile kind declared
    rw [step_eq, kind, inFile]
    simp only [hunkLine_of_nameIn_eq_some declared]
  · have start : Agree (Text.lines diff.toList) ⟨Place.start, seen, Table.empty⟩
        ⟨Place.start, seen, Table.empty⟩ := .same
    obtain ⟨ends, traps⟩ := @Agree.run read (files.map Path.normalize) _ _ chosen _ false start
    obtain ⟨found, remembered⟩ := ends.found_seen
    rw [scanWith_eq, scanWith_eq, scanTraps, scanTraps, deleted, traps]
    split_ifs
    · rfl
    · simp only [Except.map, found, remembered]

def removedDeclaration : String :=
  "diff --git a/A.java b/A.java\n@@ -1,2 +1,1 @@\n-    public void old() \x7b\n+        x = 1;\n"

def removedDeclarationDeleted : String :=
  "diff --git a/A.java b/A.java\n@@ -1,2 +1,1 @@\n+        x = 1;\n"

theorem scanWith_withoutRemoved_otherLine :
    let diff := "diff --git a/A.java b/A.java\n@@ -1,2 +1,1 @@\n-        x = 0;\n+        x = 1;\n"
    let begun : Progress := ⟨⟨some "A.java", none, some 1⟩, Table.empty, Table.empty⟩
    (step (fun _ => none) ["A.java"] begun "-    public void old()".toList).map (·.place.method) =
        .ok (some "old") ∧
      (scanWith (fun _ => none) Table.empty removedDeclarationDeleted ["A.java"]).map
          (fun progress => (progress.found, progress.seen)) =
        (scanWith (fun _ => none) Table.empty diff ["A.java"]).map
          fun progress => (progress.found, progress.seen) := by
  intro diff begun
  obtain ⟨declares, unchanged⟩ := @scanWith_withoutRemoved (fun _ => none) Table.empty ["A.java"]
    (fun _ _ => true) diff removedDeclarationDeleted (by decide +kernel)
  have here := declares begun "A.java" "old" "-    public void old()".toList '-'
    "    public void old()".toList rfl (by decide +kernel) (by decide +kernel)
  have files : ["A.java"].map Path.normalize = ["A.java"] := by decide +kernel
  rw [files] at here
  rw [here]
  exact ⟨rfl, unchanged⟩

theorem scan_removed_counts :
    ¬ ∀ (read : String → Option String) (files : List String) (diff shorter : String),
      Text.lines shorter.toList = withoutRemoved (fun _ _ => true) false (Text.lines diff.toList) →
        scan read shorter files = scan read diff files := by
  intro unchanged
  have same := unchanged (fun _ => none) ["A.java"] removedDeclaration removedDeclarationDeleted
    (by decide +kernel)
  have without : (scan (fun _ => none) removedDeclarationDeleted ["A.java"]).map (·.get? "A.java") =
      .ok none := by
    decide +kernel
  have withLine : (scan (fun _ => none) removedDeclaration ["A.java"]).map (·.get? "A.java") =
      .ok (some ["old"]) := by
    decide +kernel
  rw [same, withLine] at without
  cases without

end CallContext.Diff
