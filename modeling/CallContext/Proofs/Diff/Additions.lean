import CallContext.Proofs.Collection.Table
import CallContext.Proofs.Diff.Line

/-!
Reading a diff as a list of additions: the path and the name that a line adds depend on the place where
the line stands and on the new files, and a line of the diff leads from one place to the next. What has
been remembered of the files makes no difference, and the result is the table of the additions.
-/

namespace CallContext.Diff

open Collection

def fileLines (read : String → Option String) (path : String) : List (List Char) :=
  ((read path).map fun text => Text.lines text.toList).getD []

def Place.after (wanted : List String) (place : Place) (line : List Char) : Place :=
  match kindOf line, place.file with
  | .block, _ => ⟨(blockPath line).filter wanted.contains, none, none⟩
  | .header, some path => ⟨some path, none, hunkStart line⟩
  | .code sign code, some _ => { place.next sign with method := (nameIn code).or place.method }
  | _, _ => place

def Place.method? (read : String → Option String) (place : Place) (path : String)
    (code : List Char) : Option String :=
  ((nameIn code).or place.method).or
    (place.nextLine.bind (declaredAbove (fileLines read path)))

def Place.addition? (read : String → Option String) (place : Place) (line : List Char) :
    Option (String × String) :=
  match kindOf line, place.file with
  | .code sign code, some path =>
    if sign = '+' then (place.method? read path code).map fun name => (path, name) else none
  | _, _ => none

def additions (read : String → Option String) (wanted : List String) :
    Place → List (List Char) → List (String × String)
  | _, [] => []
  | place, line :: rest =>
    (place.addition? read line).toList ++ additions read wanted (place.after wanted line) rest

theorem additions_append (read : String → Option String) (wanted : List String) (place : Place)
    (before after : List (List Char)) :
    additions read wanted place (before ++ after) = additions read wanted place before ++
      additions read wanted (before.foldl (Place.after wanted) place) after := by
  induction before generalizing place with
  | nil => rfl
  | cons line rest ih =>
      rw [List.cons_append, additions, ih, additions.eq_def _ _ place (line :: rest),
        List.append_assoc]
      rfl

def trapsIn (wanted : List String) : Place → List (List Char) → Bool
  | _, [] => false
  | place, line :: rest => place.traps line || trapsIn wanted (place.after wanted line) rest

theorem trapsIn_append (wanted : List String) (place : Place) (before after : List (List Char)) :
    trapsIn wanted place (before ++ after) =
      (trapsIn wanted place before || trapsIn wanted (before.foldl (Place.after wanted) place) after) := by
  induction before generalizing place with
  | nil => rfl
  | cons line rest ih =>
      rw [List.cons_append, trapsIn, ih, trapsIn.eq_def _ place (line :: rest), Bool.or_assoc]
      rfl

@[simp] theorem Place.file_next (place : Place) (sign : Char) : (place.next sign).file = place.file := by
  unfold Place.next
  split_ifs <;> rfl

@[simp] theorem Place.method_next (place : Place) (sign : Char) :
    (place.next sign).method = place.method := by
  unfold Place.next
  split_ifs <;> rfl

theorem file_after {line : List Char} (inside : kindOf line ≠ .block) (wanted : List String)
    (place : Place) : (place.after wanted line).file = place.file := by
  unfold Place.after
  split
  · exact absurd (by assumption) inside
  · next current => exact current.symm
  · exact place.file_next _
  · rfl

theorem file_foldl_after {lines : List (List Char)} (inside : ∀ line ∈ lines, kindOf line ≠ .block)
    (wanted : List String) (place : Place) :
    (lines.foldl (Place.after wanted) place).file = place.file := by
  induction lines generalizing place with
  | nil => rfl
  | cons line rest ih =>
      rw [List.foldl_cons, ih fun other member => inside other (List.mem_cons_of_mem line member),
        file_after (inside line List.mem_cons_self)]

theorem get?_record (found : ChangedMethods) (path name other : String) :
    (record found path name).get? other =
      if other = path then
        some (if name ∈ (found.get? path).getD [] then (found.get? path).getD []
          else (found.get? path).getD [] ++ [name])
      else found.get? other := by
  unfold record
  rw [Table.get?_alter]
  simp only [List.contains_iff_mem]

def recordAll (found : ChangedMethods) (added : List (String × String)) : ChangedMethods :=
  added.foldl (fun found addition => record found addition.1 addition.2) found

def namesOf (path : String) (added : List (String × String)) : List String :=
  (added.filter (·.1 = path)).map (·.2)

theorem recordAll_concat (found : ChangedMethods) (added : List (String × String))
    (last : String × String) :
    recordAll found (added ++ [last]) = record (recordAll found added) last.1 last.2 := by
  simp [recordAll]

theorem keys_recordAll (added : List (String × String)) :
    (recordAll Table.empty added).keys = (added.map (·.1)).eraseDups := by
  induction added using List.reverseRecOn with
  | nil => rfl
  | append_singleton added last ih =>
      rw [recordAll_concat, record, Table.keys_alter, List.map_append, List.map_singleton,
        eraseDups_concat, ih]
      simp only [List.mem_eraseDups]

theorem get?_recordAll (added : List (String × String)) (path : String) :
    (recordAll Table.empty added).get? path =
      if namesOf path added = [] then none else some (namesOf path added).eraseDups := by
  induction added using List.reverseRecOn with
  | nil => rfl
  | append_singleton added last ih =>
      rw [recordAll_concat, get?_record]
      by_cases here : path = last.1
      · subst here
        have names : namesOf last.1 (added ++ [last]) = namesOf last.1 added ++ [last.2] := by
          simp [namesOf]
        have before : ((recordAll Table.empty added).get? last.1).getD [] =
            (namesOf last.1 added).eraseDups := by
          rw [ih]
          split_ifs with none
          · rw [none]
            rfl
          · rfl
        have some : namesOf last.1 (added ++ [last]) ≠ [] := by simp [names]
        rw [if_pos rfl, before, if_neg some, names, eraseDups_concat]
        simp only [List.mem_eraseDups]
      · have names : namesOf path (added ++ [last]) = namesOf path added := by
          simp [namesOf, Ne.symm here]
        rw [if_neg here, ih, names]

theorem mem_namesOf {path name : String} {added : List (String × String)} :
    name ∈ namesOf path added ↔ (path, name) ∈ added := by
  simp [namesOf]

def Remembers (read : String → Option String) (seen : Table String (List (List Char))) : Prop :=
  ∀ path lines, seen.get? path = some lines → lines = fileLines read path

variable {read : String → Option String} {wanted : List String} {progress : Progress}

theorem Remembers.empty : Remembers read Table.empty := by
  intro path lines present
  cases present

theorem Remembers.linesOf {seen : Table String (List (List Char))} (remembers : Remembers read seen)
    (path : String) :
    (linesOf read seen path).1 = fileLines read path ∧ Remembers read (linesOf read seen path).2 := by
  unfold Diff.linesOf
  cases known : seen.get? path with
  | some lines => exact ⟨remembers path lines known, remembers⟩
  | none =>
      refine ⟨rfl, fun other lines present => ?_⟩
      rw [Table.get?_put] at present
      split_ifs at present with here
      · rw [here]
        exact (Option.some.inj present).symm
      · exact remembers other lines present

theorem addedLine_place (progress : Progress) (file : String) (number : Option Nat) :
    (addedLine read progress file number).place = progress.place := by
  unfold addedLine
  split
  · rfl
  · dsimp only
    split <;> rfl
  · rfl

theorem addedLine_found (remembers : Remembers read progress.seen) (path : String)
    (number : Option Nat) :
    (addedLine read progress path number).found =
        recordAll progress.found ((progress.place.method.or
          (number.bind (declaredAbove (fileLines read path)))).map
            fun name => (path, name)).toList ∧
      Remembers read (addedLine read progress path number).seen := by
  obtain ⟨known, remembered⟩ := remembers.linesOf path
  unfold addedLine
  cases begun : progress.place.method with
  | some name => exact ⟨rfl, remembers⟩
  | none =>
      cases number with
      | none => exact ⟨rfl, remembers⟩
      | some line =>
          dsimp only
          rw [known, Option.none_or, Option.bind_some]
          cases declaredAbove (fileLines read path) line with
          | some name => exact ⟨rfl, remembered⟩
          | none => exact ⟨rfl, remembered⟩

theorem place_after (progress : Progress) (line : List Char) :
    (progress.after read wanted line).place = progress.place.after wanted line := by
  unfold Progress.after Place.after
  cases kindOf line with
  | block => rfl
  | header => cases progress.place.file <;> rfl
  | other => rfl
  | code sign code =>
      cases inFile : progress.place.file with
      | none => rfl
      | some path =>
          dsimp only
          cases declared : nameIn code with
          | some name => rw [hunkLine_of_nameIn_eq_some declared, Option.some_or]
          | none =>
              rw [hunkLine_of_nameIn_eq_none declared, Option.none_or, ← Place.method_next _ sign]
              by_cases added : sign = '+'
              · rw [if_pos added, addedLine_place]
              · rw [if_neg added]

theorem after_additions (remembers : Remembers read progress.seen) (line : List Char) :
    (progress.after read wanted line).found =
        recordAll progress.found (progress.place.addition? read line).toList ∧
      Remembers read (progress.after read wanted line).seen := by
  unfold Progress.after Place.addition?
  cases kindOf line with
  | block => exact ⟨rfl, remembers⟩
  | header => cases progress.place.file <;> exact ⟨rfl, remembers⟩
  | other => exact ⟨rfl, remembers⟩
  | code sign code =>
      cases inFile : progress.place.file with
      | none => exact ⟨rfl, remembers⟩
      | some path =>
          dsimp only
          cases declared : nameIn code with
          | some name =>
              rw [hunkLine_of_nameIn_eq_some declared]
              refine ⟨?_, remembers⟩
              dsimp only [Place.method?]
              rw [declared]
              split_ifs <;> rfl
          | none =>
              rw [hunkLine_of_nameIn_eq_none declared]
              by_cases added : sign = '+'
              · obtain ⟨found, remembered⟩ := @addedLine_found read
                  { progress with place := progress.place.next sign } remembers path
                  progress.place.nextLine
                rw [if_pos added, if_pos added, found, Place.method_next]
                dsimp only [Place.method?]
                rw [declared, Option.none_or]
                exact ⟨rfl, remembered⟩
              · rw [if_neg added, if_neg added]
                exact ⟨rfl, remembers⟩

theorem foldl_after_additions (remembers : Remembers read progress.seen)
    (lines : List (List Char)) :
    (lines.foldl (Progress.after read wanted) progress).found =
        recordAll progress.found (additions read wanted progress.place lines) ∧
      Remembers read (lines.foldl (Progress.after read wanted) progress).seen := by
  induction lines generalizing progress with
  | nil => exact ⟨rfl, remembers⟩
  | cons line rest ih =>
      obtain ⟨found, remembered⟩ := @after_additions read wanted progress remembers line
      obtain ⟨foundAfter, rememberedAfter⟩ := ih remembered
      rw [List.foldl_cons]
      refine ⟨?_, rememberedAfter⟩
      rw [foundAfter, found, place_after, additions, recordAll, recordAll, recordAll,
        List.foldl_append]

theorem foldlM_step (progress : Progress) (lines : List (List Char)) :
    lines.foldlM (step read wanted) progress =
      if trapsIn wanted progress.place lines then .error .overflow
      else .ok (lines.foldl (Progress.after read wanted) progress) := by
  induction lines generalizing progress with
  | nil => rfl
  | cons line rest ih =>
      rw [List.foldlM_cons, step_eq_ite, trapsIn]
      by_cases trapped : progress.place.traps line
      · rw [if_pos trapped, if_pos (by simp [trapped])]
        rfl
      · rw [if_neg trapped, Bool.eq_false_of_not_eq_true trapped, Bool.false_or, List.foldl_cons,
          ← place_after]
        exact ih _

def additionsOf (read : String → Option String) (diff : String) (files : List String) :
    List (String × String) :=
  additions read (files.map Path.normalize) Place.start (Text.lines diff.toList)

def scanTraps (diff : String) (files : List String) : Bool :=
  trapsIn (files.map Path.normalize) Place.start (Text.lines diff.toList)

theorem scanWith_eq (seen : Table String (List (List Char))) (diff : String) (files : List String) :
    scanWith read seen diff files =
      if scanTraps diff files then .error .overflow
      else .ok ((Text.lines diff.toList).foldl (Progress.after read (files.map Path.normalize))
        ⟨Place.start, seen, Table.empty⟩) :=
  foldlM_step _ _

theorem scan_eq (diff : String) (files : List String) :
    scan read diff files =
      if scanTraps diff files then .error .overflow
      else .ok (recordAll Table.empty (additionsOf read diff files)) := by
  have found := (@foldl_after_additions read (files.map Path.normalize)
    ⟨Place.start, Table.empty, Table.empty⟩ Remembers.empty (Text.lines diff.toList)).1
  rw [scan, scanWith_eq]
  split_ifs
  · rfl
  · exact congrArg Except.ok found

theorem eq_recordAll_of_scan {diff : String} {files : List String} {found : ChangedMethods}
    (scanned : scan read diff files = .ok found) :
    found = recordAll Table.empty (additionsOf read diff files) := by
  rw [scan_eq] at scanned
  split_ifs at scanned
  exact (Except.ok.inj scanned).symm

theorem mem_additionsOf_of_scan {diff path : String} {files names : List String}
    {found : ChangedMethods} (scanned : scan read diff files = .ok found)
    (entry : found.get? path = some names) :
    names ≠ [] ∧ names.Nodup ∧ ∀ name ∈ names, (path, name) ∈ additionsOf read diff files := by
  rw [eq_recordAll_of_scan scanned, get?_recordAll] at entry
  split_ifs at entry with named
  obtain rfl := Option.some.inj entry
  obtain ⟨name, member⟩ := List.exists_mem_of_ne_nil _ named
  refine ⟨List.ne_nil_of_mem (List.mem_eraseDups.mpr member), nodup_eraseDups _, fun name found => ?_⟩
  exact mem_namesOf.mp (List.mem_eraseDups.mp found)

end CallContext.Diff
