import CallContext.Proofs.Diff.Additions
import CallContext.Proofs.Text.Numeral

/-!
The numbers of the lines in a hunk. They count on from the start of the hunk, so that only a start close to
the largest number makes a scan break off, at the line that has the largest number. The lines at which a
number leads to look are lines of the file, whatever the number is.
-/

namespace CallContext.Diff

theorem findSome?_positions (name? : List Char → Option String) (lines : List (List Char))
    (first count : Nat) :
    ((List.range' first count).reverse.findSome? fun position => lines[position]?.bind name?) =
      ((lines.drop first).take count).reverse.findSome? name? := by
  induction count with
  | zero => rfl
  | succ count ih =>
      have last : ([first + count].findSome? fun position => lines[position]?.bind name?) =
          (lines[first + count]?.toList.findSome? name?) := by
        cases found : lines[first + count]? <;> simp [found]
      rw [List.range'_1_concat, List.take_add_one, List.reverse_append, List.reverse_append,
        List.findSome?_append, List.findSome?_append, ih, List.getElem?_drop, List.reverse_singleton,
        last]
      cases lines[first + count]? <;> rfl

theorem declaredAbove_eq_findSome? (lines : List (List Char)) (number : Nat) :
    declaredAbove lines number =
      ((lines.take number).reverse.take reach).findSome? declaredName := by
  unfold declaredAbove
  split_ifs with nothing
  · have none : lines.take number = [] := by
      rw [Bool.or_eq_true, List.isEmpty_iff, beq_iff_eq] at nothing
      exact List.take_eq_nil_iff.mpr nothing.symm
    rw [none]
    rfl
  · have bounds : lines ≠ [] ∧ number ≠ 0 := by simpa using nothing
    have some : 0 < lines.length := List.length_pos_iff.mpr bounds.1
    have first : min number lines.length - 1 - (reach - 1) = min number lines.length - reach := by
      rw [reach]
      omega
    have last : min number lines.length - 1 + 1 = min number lines.length := by omega
    rw [window, findSome?_positions, first, last, ← List.drop_take, ← List.take_eq_take_min, List.take_reverse,
      List.length_take]

theorem lt_of_mem_window {count number position : Nat} (some : 0 < count)
    (member : position ∈ window count number) : position < count := by
  rw [window, List.mem_reverse, List.mem_range'_1] at member
  omega

def isCounted (line : List Char) : Bool :=
  match kindOf line with
  | .code sign _ => sign != '-'
  | _ => false

/-- Lines of a diff that end within a hunk: its first line, its lines so far, and where it starts. -/
structure EndsWithin (lines : List (List Char)) (header : List Char) (inner : List (List Char))
    (start : Nat) : Prop where
  suffix : header :: inner <:+ lines
  kind : kindOf header = .header
  inside : ∀ line ∈ inner, kindOf line ≠ .block ∧ kindOf line ≠ .header
  start_eq : hunkStart header = some start

structure Place.IsNumbered (place : Place) (lines : List (List Char)) : Prop where
  inFile : place.nextLine ≠ none → place.file ≠ none
  counts : ∀ next, place.nextLine = some next → ∃ header inner start,
    EndsWithin lines header inner start ∧ next = start + inner.countP isCounted

variable {wanted : List String} {place : Place} {lines : List (List Char)} {line : List Char}

theorem EndsWithin.concat {header : List Char} {inner : List (List Char)} {start : Nat}
    (ends : EndsWithin lines header inner start)
    (goesOn : kindOf line ≠ .block ∧ kindOf line ≠ .header) :
    EndsWithin (lines ++ [line]) header (inner ++ [line]) start where
  suffix := by
    obtain ⟨earlier, rfl⟩ := ends.suffix
    exact ⟨earlier, by simp⟩
  kind := ends.kind
  inside := by
    intro other member
    rcases List.mem_append.mp member with before | last
    · exact ends.inside other before
    · rw [List.mem_singleton.mp last]
      exact goesOn
  start_eq := ends.start_eq

theorem Place.IsNumbered.concat {after : Place} (numbered : place.IsNumbered lines)
    (goesOn : kindOf line ≠ .block ∧ kindOf line ≠ .header) (sameFile : after.file = place.file)
    (next_eq : after.nextLine =
      if isCounted line then place.nextLine.map (· + 1) else place.nextLine) :
    after.IsNumbered (lines ++ [line]) where
  inFile := by
    rw [sameFile, next_eq]
    intro there
    refine numbered.inFile fun missing => there ?_
    rw [missing, Option.map_none, ite_self]
  counts := by
    intro next there
    rw [next_eq] at there
    split_ifs at there with isLine
    · obtain ⟨before, known, rfl⟩ := Option.map_eq_some_iff.mp there
      obtain ⟨header, inner, start, ends, rfl⟩ := numbered.counts before known
      refine ⟨header, inner ++ [line], start, ends.concat goesOn, ?_⟩
      rw [List.countP_append, List.countP_singleton, if_pos isLine, Nat.add_assoc]
    · obtain ⟨header, inner, start, ends, rfl⟩ := numbered.counts next there
      refine ⟨header, inner ++ [line], start, ends.concat goesOn, ?_⟩
      rw [List.countP_append, List.countP_singleton, if_neg isLine, Nat.add_zero]

theorem Place.isNumbered_of_nextLine_eq_none (missing : place.nextLine = none) :
    place.IsNumbered lines where
  inFile := fun there => absurd missing there
  counts := by
    intro next there
    rw [missing] at there
    cases there

theorem Place.IsNumbered.nextLine_eq_none (numbered : place.IsNumbered lines)
    (outside : place.file = none) : place.nextLine = none := by
  by_contra there
  exact numbered.inFile there outside

theorem Place.IsNumbered.after (numbered : place.IsNumbered lines) (line : List Char) :
    (place.after wanted line).IsNumbered (lines ++ [line]) := by
  cases kind : kindOf line with
  | block =>
      apply isNumbered_of_nextLine_eq_none
      simp [Place.after, kind]
  | other =>
      apply numbered.concat
      · simp [kind]
      · simp [Place.after, kind]
      · simp [Place.after, kind, isCounted]
  | header =>
      cases inFile : place.file with
      | none =>
          apply isNumbered_of_nextLine_eq_none
          simp [Place.after, kind, inFile, numbered.nextLine_eq_none inFile]
      | some path =>
          have begun : place.after wanted line = ⟨some path, none, hunkStart line⟩ := by
            simp [Place.after, kind, inFile]
          rw [begun]
          refine ⟨fun _ => nofun, fun next there => ?_⟩
          exact ⟨line, [], next, ⟨⟨lines, rfl⟩, kind, nofun, there⟩, by simp⟩
  | code sign code =>
      have goesOn : kindOf line ≠ .block ∧ kindOf line ≠ .header := by simp [kind]
      apply numbered.concat goesOn (file_after goesOn.1 wanted place)
      cases inFile : place.file with
      | none => simp [Place.after, kind, inFile, numbered.nextLine_eq_none inFile]
      | some path =>
          simp only [Place.after, kind, inFile, isCounted, bne_iff_ne, Place.next]
          rw [ite_not]
          split_ifs <;> rfl

theorem isNumbered_foldl_after (wanted : List String) (lines : List (List Char)) :
    (lines.foldl (Place.after wanted) Place.start).IsNumbered lines := by
  induction lines using List.reverseRecOn with
  | nil => exact Place.isNumbered_of_nextLine_eq_none rfl
  | append_singleton before line ih =>
      rw [List.foldl_append, List.foldl_cons, List.foldl_nil]
      exact ih.after line

def Place.Fits (place : Place) : Prop :=
  ∀ number, place.nextLine = some number → number ≤ Text.maxNumber

theorem le_of_hunkStart {number : Nat} (read : hunkStart line = some number) :
    number ≤ Text.maxNumber := by
  obtain ⟨⟨_, range⟩, -, read⟩ := Option.bind_eq_some_iff.mp read
  exact Text.le_of_readNumber read

theorem Place.nextLine_next (place : Place) (sign : Char) :
    (place.next sign).nextLine =
      if sign = '-' then place.nextLine else place.nextLine.map (· + 1) := by
  unfold Place.next
  split_ifs <;> rfl

theorem Place.Fits.after (fits : place.Fits) (passes : place.traps line = false) :
    (place.after wanted line).Fits := by
  unfold Place.after
  unfold Place.traps at passes
  split
  · exact nofun
  · exact fun number read => le_of_hunkStart read
  · next sign code path kind inFile =>
      rw [kind, inFile] at passes
      intro number there
      rw [Place.nextLine_next] at there
      split_ifs at there with removed
      · exact fits number there
      · obtain ⟨before, known, rfl⟩ := Option.map_eq_some_iff.mp there
        simpa [isFull, removed, known] using passes
  · exact fits

theorem fits_foldl_after {before : List (List Char)} (fits : place.Fits)
    (passes : trapsIn wanted place before = false) :
    (before.foldl (Place.after wanted) place).Fits := by
  induction before generalizing place with
  | nil => exact fits
  | cons line rest ih =>
      rw [trapsIn, Bool.or_eq_false_iff] at passes
      exact ih (fits.after passes.1) passes.2

theorem exists_nextLine_of_after (inside : kindOf line ≠ .header) {number : Nat}
    (there : (place.after wanted line).nextLine = some number) :
    ∃ before, place.nextLine = some before ∧ number ≤ before + 1 := by
  unfold Place.after at there
  split at there
  · cases there
  · next kind _ => exact absurd kind inside
  · next sign _ _ _ _ =>
      rw [Place.nextLine_next] at there
      split_ifs at there
      · exact ⟨number, there, Nat.le_succ number⟩
      · obtain ⟨before, known, rfl⟩ := Option.map_eq_some_iff.mp there
        exact ⟨before, known, Nat.le_refl _⟩
  · exact ⟨number, there, Nat.le_succ number⟩

theorem not_traps_of_lt (room : ∀ number, place.nextLine = some number → number < Text.maxNumber) :
    place.traps line = false := by
  unfold Place.traps
  split
  · cases known : place.nextLine with
    | none => simp [Place.isFull, known]
    | some number => simp [Place.isFull, known, room number known]
  · rfl

theorem not_trapsIn_of_length_le (inside : ∀ line ∈ lines, kindOf line ≠ .header)
    (room : ∀ number, place.nextLine = some number → number + lines.length ≤ Text.maxNumber) :
    trapsIn wanted place lines = false := by
  induction lines generalizing place with
  | nil => rfl
  | cons line rest ih =>
      simp only [List.length_cons] at room
      have passes : place.traps line = false := by
        apply not_traps_of_lt
        intro number known
        have bound := room number known
        omega
      rw [trapsIn, passes, Bool.false_or]
      refine ih (fun other member => inside other (List.mem_cons_of_mem line member)) ?_
      intro number there
      obtain ⟨before, known, near⟩ := exists_nextLine_of_after (inside line List.mem_cons_self) there
      have bound := room before known
      omega

theorem traps_iff (fits : place.Fits) (numbered : place.IsNumbered lines) :
    place.traps line ↔ isCounted line ∧ place.nextLine = some Text.maxNumber := by
  unfold Place.traps isCounted
  cases kindOf line with
  | block => simp
  | header => simp
  | other => simp
  | code sign code =>
      cases inFile : place.file with
      | none => simp [numbered.nextLine_eq_none inFile]
      | some path =>
          cases known : place.nextLine with
          | none => simp [Place.isFull, known]
          | some number =>
              have bound := fits number known
              simp only [Place.isFull, known, Option.any_some, Bool.and_eq_true, decide_eq_true_eq,
                Option.some_inj]
              exact and_congr_right fun _ => ⟨fun full => Nat.le_antisymm bound full, Nat.le_of_eq ∘ Eq.symm⟩

theorem trapsIn_iff :
    trapsIn wanted place lines ↔ ∃ before line after, lines = before ++ line :: after ∧
      trapsIn wanted place before = false ∧ (before.foldl (Place.after wanted) place).traps line := by
  induction lines generalizing place with
  | nil => simp [trapsIn]
  | cons first rest ih =>
      rw [trapsIn, Bool.or_eq_true, ih]
      constructor
      · rintro (here | ⟨before, line, after, rfl, passes, later⟩)
        · exact ⟨[], first, rest, rfl, rfl, here⟩
        · by_cases here : place.traps first
          · exact ⟨[], first, _, rfl, rfl, here⟩
          · refine ⟨first :: before, line, after, rfl, ?_, later⟩
            rw [trapsIn, Bool.or_eq_false_iff]
            exact ⟨Bool.eq_false_of_not_eq_true here, passes⟩
      · rintro ⟨before, line, after, split, passes, later⟩
        cases before with
        | nil =>
            obtain ⟨rfl, rfl⟩ := List.cons.inj split
            exact .inl later
        | cons other before =>
            obtain ⟨rfl, rfl⟩ := List.cons.inj split
            rw [trapsIn, Bool.or_eq_false_iff] at passes
            exact .inr ⟨before, line, after, rfl, passes.2, later⟩

theorem place_foldl_after (read : String → Option String) (progress : Progress)
    (lines : List (List Char)) :
    (lines.foldl (Progress.after read wanted) progress).place =
      lines.foldl (Place.after wanted) progress.place := by
  induction lines generalizing progress with
  | nil => rfl
  | cons line rest ih => rw [List.foldl_cons, List.foldl_cons, ih, place_after]

theorem foldlM_step_eq_ok_iff {read : String → Option String} {start progress : Progress} :
    lines.foldlM (step read wanted) start = .ok progress ↔
      trapsIn wanted start.place lines = false ∧
        lines.foldl (Progress.after read wanted) start = progress := by
  rw [foldlM_step]
  by_cases trapped : trapsIn wanted start.place lines <;> simp [trapped]

theorem step_eq_error_iff {read : String → Option String} {progress : Progress} :
    step read wanted progress line = .error .overflow ↔ progress.place.traps line := by
  rw [step_eq_ite]
  split_ifs with trapped <;> simp [trapped]

theorem foldlM_step_eq_error_iff {read : String → Option String} {start : Progress} :
    lines.foldlM (step read wanted) start = .error .overflow ↔
      ∃ before line after progress, lines = before ++ line :: after ∧
        before.foldlM (step read wanted) start = .ok progress ∧ progress.place.traps line := by
  have broken : lines.foldlM (step read wanted) start = .error .overflow ↔
      trapsIn wanted start.place lines := by
    rw [foldlM_step]
    split_ifs with trapped <;> simp [trapped]
  rw [broken, trapsIn_iff]
  constructor
  · rintro ⟨before, line, after, split, passes, trapped⟩
    refine ⟨before, line, after, _, split, foldlM_step_eq_ok_iff.mpr ⟨passes, rfl⟩, ?_⟩
    rw [place_foldl_after]
    exact trapped
  · rintro ⟨before, line, after, progress, split, ran, trapped⟩
    obtain ⟨passes, rfl⟩ := foldlM_step_eq_ok_iff.mp ran
    rw [place_foldl_after] at trapped
    exact ⟨before, line, after, split, passes, trapped⟩

theorem fits_isNumbered_of_foldlM_step {read : String → Option String} {start progress : Progress}
    (begins : start.place = Place.start)
    (ran : lines.foldlM (step read wanted) start = .ok progress) :
    progress.place.Fits ∧ progress.place.IsNumbered lines := by
  obtain ⟨passes, rfl⟩ := foldlM_step_eq_ok_iff.mp ran
  rw [begins] at passes
  rw [place_foldl_after, begins]
  exact ⟨fits_foldl_after nofun passes, isNumbered_foldl_after wanted lines⟩

/-- At each line of a diff the number of the next line, if there is one, is the start of the hunk plus the
lines counted in it and has 64 bits. A scan breaks off exactly if a line that is counted has the largest
number, and it does so at this line. From any number one looks up from a line of the file, at lines of the
file. -/
theorem scanWith_lineNumbers (read : String → Option String) (seen : Table String (List (List Char)))
    (diff : String) (files : List String) :
    let wanted := files.map Path.normalize
    let start : Progress := ⟨Place.start, seen, Table.empty⟩
    (∀ before after progress, Text.lines diff.toList = before ++ after →
      before.foldlM (step read wanted) start = .ok progress →
        (∀ next, progress.place.nextLine = some next → next < 2 ^ 64 ∧ ∃ header inner first,
          EndsWithin before header inner first ∧ next = first + inner.countP isCounted) ∧
        ∀ line, step read wanted progress line = .error .overflow ↔
          isCounted line ∧ progress.place.nextLine = some (2 ^ 64 - 1)) ∧
    (scanWith read seen diff files = .error .overflow ↔ ∃ before line after progress,
      Text.lines diff.toList = before ++ line :: after ∧
        before.foldlM (step read wanted) start = .ok progress ∧
        isCounted line ∧ progress.place.nextLine = some (2 ^ 64 - 1)) ∧
    ∀ (lines : List (List Char)) (number : Nat), lines ≠ [] → number ≠ 0 →
      0 < min number lines.length ∧
        ∀ position ∈ window lines.length number, position < lines.length := by
  intro wanted start
  have largest : (2 ^ 64 - 1 : Nat) = Text.maxNumber := rfl
  have traps (before : List (List Char)) (progress : Progress)
      (ran : before.foldlM (step read wanted) start = .ok progress) (line : List Char) :
      progress.place.traps line ↔ isCounted line ∧ progress.place.nextLine = some (2 ^ 64 - 1) := by
    obtain ⟨fits, numbered⟩ := fits_isNumbered_of_foldlM_step rfl ran
    exact traps_iff fits numbered
  refine ⟨fun before after progress _ ran => ⟨fun next there => ?_, fun line => ?_⟩, ?_, ?_⟩
  · obtain ⟨fits, numbered⟩ := fits_isNumbered_of_foldlM_step rfl ran
    have bound := fits next there
    exact ⟨by omega, numbered.counts next there⟩
  · rw [step_eq_error_iff, traps before progress ran]
  · refine foldlM_step_eq_error_iff.trans ?_
    constructor
    · rintro ⟨before, line, after, progress, split, ran, trapped⟩
      exact ⟨before, line, after, progress, split, ran, (traps before progress ran line).mp trapped⟩
    · rintro ⟨before, line, after, progress, split, ran, counted⟩
      exact ⟨before, line, after, progress, split, ran, (traps before progress ran line).mpr counted⟩
  · intro lines number nonempty positive
    have some : 0 < lines.length := List.length_pos_iff.mpr nonempty
    exact ⟨by omega, fun position => lt_of_mem_window some⟩

def lastNumberDiff : String :=
  "diff --git a/A.java b/A.java\n--- a/A.java\n+++ b/A.java\n@@ -1 +18446744073709551615,2 @@\n" ++
    "         a();\n+        b();\n"

theorem scanWith_lineNumbers_overflow :
    scan (fun _ => none) lastNumberDiff ["A.java"] = .error .overflow ∧
      ¬ ∀ (read : String → Option String) (seen : Table String (List (List Char))) (diff : String)
        (files : List String) (before after : List (List Char)) (progress : Progress) (next : Nat),
        Text.lines diff.toList = before ++ after →
        before.foldlM (step read (files.map Path.normalize)) ⟨Place.start, seen, Table.empty⟩ =
          .ok progress →
        progress.place.nextLine = some next → next + 1 < 2 ^ 64 := by
  constructor
  · have trapped : scanTraps lastNumberDiff ["A.java"] := by decide +kernel
    rw [scan_eq, if_pos trapped]
  · intro bounded
    have below := bounded (fun _ => none) Table.empty lastNumberDiff ["A.java"] _ _ _
      18446744073709551615 (List.take_append_drop 4 (Text.lines lastNumberDiff.toList)).symm
      (foldlM_step_eq_ok_iff.mpr ⟨by decide +kernel, rfl⟩) (by decide +kernel)
    exact absurd below (by decide)

end CallContext.Diff
