import CallContext.Proofs.Diff.LineNumbers

namespace CallContext.Diff

def isAbout (path : String) (inside : Bool) (line : List Char) : Bool :=
  if kindOf line = .block then blockPath line = some path else inside

def linesAbout (path : String) : Bool → List (List Char) → List (List Char)
  | _, [] => []
  | inside, line :: rest =>
    if isAbout path inside line then line :: linesAbout path true rest
    else linesAbout path false rest

def nameOn (line : List Char) : Option String :=
  match kindOf line with
  | .code _ code => nameIn code
  | _ => none

/-- The names that the lines of a diff about a file, or of the file itself, seem to declare. -/
def suggested (read : String → Option String) (diff path : String) : List String :=
  (linesAbout path false (Text.lines diff.toList)).filterMap nameOn ++
    (fileLines read path).filterMap declaredName

theorem mem_of_declaredAbove {lines : List (List Char)} {number : Nat} {name : String}
    (declared : declaredAbove lines number = some name) : name ∈ lines.filterMap declaredName := by
  rw [declaredAbove_eq_findSome?] at declared
  obtain ⟨line, member, named⟩ := List.exists_of_findSome?_eq_some declared
  have inLines : line ∈ lines :=
    List.mem_of_mem_take (List.mem_reverse.mp (List.mem_of_mem_take member))
  exact List.mem_filterMap.mpr ⟨line, inLines, named⟩

def Place.Allows (place : Place) (path : String) (allowed : String → Prop) : Prop :=
  place.file = some path → ∀ name, place.method = some name → allowed name

variable {read : String → Option String} {wanted : List String} {path name : String}
  {allowed : String → Prop} {place : Place}

theorem isAbout_of_file_after {inside : Bool} (flagged : place.file = some path → inside = true)
    {line : List Char} (inFile : (place.after wanted line).file = some path) :
    isAbout path inside line = true := by
  unfold isAbout
  split_ifs with opens
  · have entered : blockPath line = some path ∧ path ∈ wanted := by
      simpa [Place.after, opens] using inFile
    simpa using entered.1
  · rw [file_after opens] at inFile
    exact flagged inFile

theorem allows_after (begun : place.Allows path allowed) {line : List Char}
    (here : place.file = some path → ∀ name, nameOn line = some name → allowed name) :
    (place.after wanted line).Allows path allowed := by
  intro inFile name current
  by_cases opens : kindOf line = .block
  · simp [Place.after, opens] at current
  · rw [file_after opens] at inFile
    unfold Place.after at current
    unfold nameOn at here
    split at current
    · cases current
    · cases current
    · next kind _ =>
        rw [kind] at here
        rcases Option.or_eq_some_iff.mp current with declared | ⟨-, before⟩
        · exact here inFile name declared
        · exact begun inFile name before
    · exact begun inFile name current

theorem allowed_of_addition? (begun : place.Allows path allowed)
    (above : ∀ name ∈ (fileLines read path).filterMap declaredName, allowed name) {line : List Char}
    (here : place.file = some path → ∀ name, nameOn line = some name → allowed name)
    (added : place.addition? read line = some (path, name)) : allowed name := by
  unfold Place.addition? at added
  unfold nameOn at here
  split at added
  · next kind inFile =>
      rw [kind] at here
      split_ifs at added
      obtain ⟨counted, method, same⟩ := Option.map_eq_some_iff.mp added
      obtain ⟨rfl, rfl⟩ := Prod.mk.inj same
      rcases Option.or_eq_some_iff.mp method with inHunk | ⟨-, higher⟩
      · rcases Option.or_eq_some_iff.mp inHunk with declared | ⟨-, before⟩
        · exact here inFile counted declared
        · exact begun inFile counted before
      · obtain ⟨number, -, declared⟩ := Option.bind_eq_some_iff.mp higher
        exact above counted (mem_of_declaredAbove declared)
  · cases added

theorem allowed_of_mem_additions
    (above : ∀ name ∈ (fileLines read path).filterMap declaredName, allowed name)
    {lines : List (List Char)} {inside : Bool} (flagged : place.file = some path → inside = true)
    (begun : place.Allows path allowed)
    (about : ∀ name ∈ (linesAbout path inside lines).filterMap nameOn, allowed name)
    (added : (path, name) ∈ additions read wanted place lines) : allowed name := by
  -- The flag is only an upper bound: a block counts here even if its path is not wanted.
  induction lines generalizing place inside with
  | nil => cases added
  | cons line rest ih =>
      have here : place.file = some path → ∀ name, nameOn line = some name → allowed name := by
        intro inFile name named
        have kept : kindOf line ≠ .block := by
          intro kind
          simp [nameOn, kind] at named
        refine about name (List.mem_filterMap.mpr ⟨line, ?_, named⟩)
        simp [linesAbout, isAbout, kept, flagged inFile]
      rcases List.mem_append.mp added with first | later
      · exact allowed_of_addition? begun above here (Option.mem_toList.mp first)
      · refine ih (fun inFile => isAbout_of_file_after flagged inFile) (allows_after begun here)
          (fun other member => about other ?_) later
        obtain ⟨further, listed, named⟩ := List.mem_filterMap.mp member
        refine List.mem_filterMap.mpr ⟨further, ?_, named⟩
        rw [linesAbout]
        split_ifs with next
        · rw [next] at listed
          exact List.mem_cons_of_mem line listed
        · rw [Bool.not_eq_true] at next
          rw [next] at listed
          exact listed

theorem names_of_scan {diff : String} {files names : List String} {found : ChangedMethods}
    (scanned : scan read diff files = .ok found) (entry : found.get? path = some names) :
    names ≠ [] ∧ ∀ name ∈ names, name ∈ suggested read diff path := by
  obtain ⟨nonempty, -, added⟩ := mem_additionsOf_of_scan scanned entry
  refine ⟨nonempty, fun name member => ?_⟩
  have outside : Place.start.file ≠ some path := nofun
  exact allowed_of_mem_additions (fun _ inLines => List.mem_append_right _ inLines)
    (fun inFile => absurd inFile outside) (fun inFile => absurd inFile outside)
    (fun _ inBlocks => List.mem_append_left _ inBlocks) (added name member)

end CallContext.Diff
