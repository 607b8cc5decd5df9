import CallContext.Proofs.Diff.Additions
import CallContext.Proofs.Text.Lines
import CallContext.Request

/-!
The blocks of a diff. Reading starts anew at the first line of a block, so the changed methods of a diff
are those of its blocks put together. They are found for requested files only, and for each such file
there are some, all of them different.
-/

namespace CallContext

open Collection

namespace ChangedMethods

variable (first second : ChangedMethods)

def withNew (names others : List String) : List String :=
  names ++ others.filter (· ∉ names)

def merge : ChangedMethods where
  entries :=
    (first.toList.map fun (path, names) => (path, withNew names ((second.get? path).getD []))) ++
      second.toList.filter fun (path, _) => path ∉ first.keys
  nodup := by
    rw [List.map_append, List.map_map]
    refine List.nodup_append.mpr ⟨first.nodup, ?_, ?_⟩
    · exact second.nodup.sublist (List.filter_sublist.map _)
    · intro path known other fresh same
      obtain ⟨entry, kept, rfl⟩ := List.mem_map.mp fresh
      have absent : entry.1 ∉ first.keys := by simpa using (List.mem_filter.mp kept).2
      exact absent (same ▸ known)

theorem keys_merge :
    (first.merge second).keys = first.keys ++ second.keys.filter (· ∉ first.keys) := by
  simp only [Table.keys, merge, Table.toList, List.map_append, List.map_map, List.filter_map]
  rfl

theorem get?_merge (path : String) :
    (first.merge second).get? path =
      match first.get? path with
      | some names => some (withNew names ((second.get? path).getD []))
      | none => second.get? path := by
  rw [Table.get?, merge, List.lookup_append]
  have known : (first.toList.map fun (path, names) =>
      (path, withNew names ((second.get? path).getD []))).lookup path =
        (first.get? path).map fun names => withNew names ((second.get? path).getD []) :=
    Table.lookup_map_snd (fun path names => withNew names ((second.get? path).getD [])) _ path
  rw [known]
  cases present : first.get? path with
  | some names => rfl
  | none =>
      have absent : path ∉ first.keys := by
        rw [first.mem_keys_iff, present]
        simp
      rw [Option.map_none, Option.none_or]
      exact Table.lookup_filter_fst (p := fun path => decide (path ∉ first.keys)) (by simpa using absent) _

end ChangedMethods

namespace Diff

theorem recordAll_append (first second : List (String × String)) :
    recordAll Table.empty (first ++ second) =
      (recordAll Table.empty first).merge (recordAll Table.empty second) := by
  apply Table.ext_get?
  · rw [ChangedMethods.keys_merge, keys_recordAll, keys_recordAll, keys_recordAll, List.map_append,
      eraseDups_append_filter, eraseDups_filter]
    simp only [List.mem_eraseDups]
  · intro path _
    have names : namesOf path (first ++ second) = namesOf path first ++ namesOf path second := by
      simp [namesOf]
    rw [ChangedMethods.get?_merge, get?_recordAll, get?_recordAll, get?_recordAll, names]
    by_cases begun : namesOf path first = []
    · rw [begun, List.nil_append, if_pos rfl]
    · rw [if_neg begun, if_neg (List.append_ne_nil_of_left_ne_nil begun _), eraseDups_append_filter,
        eraseDups_filter]
      by_cases further : namesOf path second = []
      · simp [ChangedMethods.withNew, further]
      · simp [ChangedMethods.withNew, further, List.mem_eraseDups]

variable {read : String → Option String} {wanted : List String}

theorem additions_block {line : List Char} (opens : kindOf line = .block) (place : Place)
    (rest : List (List Char)) :
    additions read wanted place (line :: rest) = additions read wanted Place.start (line :: rest) := by
  simp [additions, Place.after, Place.addition?, opens]

theorem trapsIn_block {line : List Char} (opens : kindOf line = .block) (place : Place)
    (rest : List (List Char)) :
    trapsIn wanted place (line :: rest) = trapsIn wanted Place.start (line :: rest) := by
  simp [trapsIn, Place.after, Place.traps, opens]

theorem mem_wanted_of_mem_additions {place : Place}
    (inside : ∀ path, place.file = some path → path ∈ wanted) (lines : List (List Char)) :
    ∀ addition ∈ additions read wanted place lines, addition.1 ∈ wanted := by
  induction lines generalizing place with
  | nil => simp [additions]
  | cons line rest ih =>
      intro addition member
      rcases List.mem_append.mp member with here | later
      · rw [Option.mem_toList] at here
        unfold Place.addition? at here
        split at here
        · next path _ inFile =>
            split_ifs at here
            obtain ⟨name, -, rfl⟩ := Option.map_eq_some_iff.mp here
            exact inside path inFile
        · cases here
      · refine ih ?_ addition later
        intro path inFile
        unfold Place.after at inFile
        split at inFile
        · exact List.contains_iff_mem.mp (Option.filter_eq_some_iff.mp inFile).2
        · next current => exact inside path (current ▸ inFile)
        · exact inside path (by simpa using inFile)
        · exact inside path inFile

/-- The changed methods of a diff in two parts, of which the second begins with a block, are those of
its parts put together; the scan breaks off if that of a part does. All of them belong to requested files,
with some names for each file and none twice, so a request that is narrowed by them is narrowed in exactly
these files. -/
theorem scan_blocks (read : String → Option String) (files : List String) :
    (∀ first second : String, first = "" ∨ first.toList.getLast? = some '\n' →
      "diff --git".toList <+: second.toList →
        scan read (first ++ second) files = do
          let found ← scan read first files
          let more ← scan read second files
          return found.merge more) ∧
    ∀ (diff : String) (found : ChangedMethods), scan read diff files = .ok found →
      (∀ path names, found.get? path = some names →
        path ∈ files.map Path.normalize ∧ names ≠ [] ∧ names.Nodup) ∧
      ∀ request : Request, request.changedMethods = some found →
        ∀ path, (request.namesFor path).isSome ↔ path ∈ found.keys := by
  refine ⟨fun first second ends begins => ?_, fun diff found scanned => ?_⟩
  · obtain ⟨line, rest, lines, opens⟩ :=
      Text.exists_lines_eq_cons (by decide) (by decide) (by decide) begins
    have block : kindOf line = .block := by
      have started : startsWith "diff --git" line = true := List.isPrefixOf_iff_prefix.mpr opens
      simp [kindOf, started]
    have ended : first.toList = [] ∨ first.toList.getLast? = some '\n' :=
      ends.imp_left fun empty => by rw [empty]; rfl
    -- The second part begins with a block, so the place that the first part ends in is forgotten.
    have traps : scanTraps (first ++ second) files = (scanTraps first files || scanTraps second files) := by
      rw [scanTraps, scanTraps, scanTraps, String.toList_append, Text.lines_append ended, lines,
        trapsIn_append, trapsIn_block block]
    have added : additionsOf read (first ++ second) files =
        additionsOf read first files ++ additionsOf read second files := by
      rw [additionsOf, additionsOf, additionsOf, String.toList_append, Text.lines_append ended, lines,
        additions_append, additions_block block]
    rw [scan_eq, scan_eq, scan_eq, traps, added, recordAll_append]
    cases scanTraps first files with
    | true => rfl
    | false => cases scanTraps second files <;> rfl
  · have entries (path : String) (names : List String) (entry : found.get? path = some names) :
        path ∈ files.map Path.normalize ∧ names ≠ [] ∧ names.Nodup := by
      obtain ⟨some, nodup, added⟩ := mem_additionsOf_of_scan scanned entry
      obtain ⟨name, member⟩ := List.exists_mem_of_ne_nil names some
      have outside : ∀ path, Place.start.file = .some path → path ∈ files.map Path.normalize := by
        intro path inFile
        cases inFile
      exact ⟨mem_wanted_of_mem_additions outside _ _ (added name member), some, nodup⟩
    refine ⟨entries, fun request narrowed path => ?_⟩
    rw [Table.mem_keys_iff, Request.namesFor, narrowed, Option.bind_some]
    cases entry : found.get? path with
    | none => rfl
    | some names =>
        have some := (entries path names entry).2.1
        simp [some]

def runAndStop : String :=
  "diff --git a/A.java b/A.java\n@@ -1,1 +1,3 @@\n+  public void run();\n+  public void stop();\n"

def stopAndGo : String :=
  "diff --git a/B.java b/B.java\n@@ -1,1 +1,2 @@\n+  public void go();\n" ++
    "diff --git a/A.java b/A.java\n@@ -9,1 +9,3 @@\n+  public void stop();\n+  public void wait();\n"

theorem scan_blocks_twoFiles :
    (runAndStop.toList.getLast? = some '\n' ∧ "diff --git".toList <+: stopAndGo.toList) ∧
      scan (fun _ => none) (runAndStop ++ stopAndGo) ["A.java", "B.java"] = (do
        let found ← scan (fun _ => none) runAndStop ["A.java", "B.java"]
        let more ← scan (fun _ => none) stopAndGo ["A.java", "B.java"]
        return found.merge more) := by
  have ends : runAndStop.toList.getLast? = some '\n' := by decide +kernel
  have begins : "diff --git".toList <+: stopAndGo.toList := by decide +kernel
  exact ⟨⟨ends, begins⟩,
    (scan_blocks (fun _ => none) ["A.java", "B.java"]).1 runAndStop stopAndGo (.inr ends) begins⟩

end Diff

end CallContext
