import CallContext.FileTree.Walk
import Mathlib.Data.List.Basic
import Mathlib.Data.List.Nodup
import Mathlib.Data.List.Infix
import CallContext.Proofs.Collection.Table

/-!
What a walk finds. It leaves directories out while it goes down and files when it has come upon them, and this
comes to the same as choosing, among all files of a tree, those to which a whole path leads that no name and
no glob excludes.
-/

namespace CallContext

namespace FileTree

/-! ## Trees -/

mutual

def all (test : FileTree → Bool) : FileTree → Bool
  | .file bytes => test (.file bytes)
  | .directory entries => test (.directory entries) && allOf test entries

def allOf (test : FileTree → Bool) : List (String × FileTree) → Bool
  | [] => true
  | (_, node) :: rest => node.all test && allOf test rest

end

mutual

def paths : FileTree → List (List String)
  | .file _ => [[]]
  | .directory entries => pathsOf entries

def pathsOf : List (String × FileTree) → List (List String)
  | [] => []
  | (name, node) :: rest => node.paths.map (name :: ·) ++ pathsOf rest

end

def entriesApart : FileTree → Bool
  | .file _ => true
  | .directory entries => (entries.map (·.1)).Nodup

def IsUnambiguous (tree : FileTree) : Prop :=
  tree.all entriesApart

instance (tree : FileTree) : Decidable tree.IsUnambiguous :=
  inferInstanceAs (Decidable (_ = true))

theorem allOf_iff {test : FileTree → Bool} {entries : List (String × FileTree)} :
    allOf test entries ↔ ∀ entry ∈ entries, entry.2.all test := by
  induction entries with
  | nil => simp [allOf]
  | cons entry rest ih => simp [allOf, ih]

theorem isUnambiguous_directory {entries : List (String × FileTree)} :
    (directory entries).IsUnambiguous ↔
      (entries.map (·.1)).Nodup ∧ ∀ entry ∈ entries, entry.2.IsUnambiguous := by
  rw [IsUnambiguous, all, Bool.and_eq_true, allOf_iff, entriesApart, decide_eq_true_iff]
  rfl

theorem mem_pathsOf {entries : List (String × FileTree)} {names : List String} :
    names ∈ pathsOf entries ↔
      ∃ entry ∈ entries, ∃ rest ∈ entry.2.paths, entry.1 :: rest = names := by
  induction entries with
  | nil => simp [pathsOf]
  | cons entry others ih =>
      rw [pathsOf, List.mem_append, ih, List.mem_map, List.exists_mem_cons_iff]

theorem mem_paths {tree : FileTree} (unambiguous : tree.IsUnambiguous) {names : List String} :
    names ∈ tree.paths ↔ ∃ bytes, tree.at? names = some (.file bytes) := by
  induction names generalizing tree with
  | nil =>
      cases tree with
      | file bytes => simp [paths, at?]
      | directory entries => simp [paths, mem_pathsOf, at?]
  | cons name rest ih =>
      cases tree with
      | file bytes => simp [paths, at?, child?]
      | directory entries =>
          obtain ⟨apart, below⟩ := isUnambiguous_directory.mp unambiguous
          have lookup {node : FileTree} : entries.lookup name = some node ↔ (name, node) ∈ entries :=
            Table.lookup_eq_some_iff apart
          simp only [paths, mem_pathsOf, at?, child?, List.cons.injEq, Option.bind_eq_some_iff]
          constructor
          · rintro ⟨⟨_, node⟩, member, _, inside, rfl, rfl⟩
            obtain ⟨bytes, found⟩ := (ih (below _ member)).mp inside
            exact ⟨bytes, node, lookup.mpr member, found⟩
          · rintro ⟨bytes, node, listed, found⟩
            have member := lookup.mp listed
            exact ⟨(name, node), member, rest, (ih (below _ member)).mpr ⟨bytes, found⟩, rfl, rfl⟩

mutual

theorem nodup_paths {tree : FileTree} (unambiguous : tree.IsUnambiguous) : tree.paths.Nodup := by
  cases tree with
  | file bytes => exact List.nodup_singleton []
  | directory entries =>
      obtain ⟨apart, below⟩ := isUnambiguous_directory.mp unambiguous
      exact nodup_pathsOf apart below

theorem nodup_pathsOf {entries : List (String × FileTree)} (apart : (entries.map (·.1)).Nodup)
    (below : ∀ entry ∈ entries, entry.2.IsUnambiguous) : (pathsOf entries).Nodup := by
  match entries with
  | [] => exact List.nodup_nil
  | (name, node) :: rest =>
      obtain ⟨fresh, distinct⟩ := List.nodup_cons.mp apart
      rw [pathsOf, List.nodup_append]
      refine ⟨?_, ?_, ?_⟩
      · exact (nodup_paths (below _ List.mem_cons_self)).map (List.cons_injective)
      · exact nodup_pathsOf distinct fun entry member => below entry (List.mem_cons_of_mem _ member)
      · rintro names first others second rfl
        obtain ⟨_, -, rfl⟩ := List.mem_map.mp first
        obtain ⟨entry, member, _, -, same⟩ := mem_pathsOf.mp second
        obtain ⟨rfl, -⟩ := List.cons.inj same
        exact fresh (List.mem_map.mpr ⟨entry, member, rfl⟩)

end

/-! ## Ignore files -/

def ignoreFiles : List (List String) :=
  [[".ignore"], [".gitignore"], [".git", "info", "exclude"]]

def hasIgnoreFile (tree : FileTree) : Bool :=
  ignoreFiles.any fun names => (tree.at? names).any (!·.isDirectory)

def IsPlain (tree : FileTree) : Prop :=
  tree.all (!·.hasIgnoreFile)

instance (tree : FileTree) : Decidable tree.IsPlain :=
  inferInstanceAs (Decidable (_ = true))

theorem isPlain_directory {entries : List (String × FileTree)} :
    (directory entries).IsPlain ↔
      (directory entries).hasIgnoreFile = false ∧ ∀ entry ∈ entries, entry.2.IsPlain := by
  rw [IsPlain, all, Bool.and_eq_true, allOf_iff, Bool.not_eq_true']
  rfl

end FileTree

namespace IgnoreLevel

structure IsSilent (level : IgnoreLevel) : Prop where
  general : level.general = []
  git : level.git = []
  exclude : level.exclude = []

theorem rulesOf_eq_nil {file : Option FileTree} (other : file.any (!·.isDirectory) = false) :
    rulesOf file = [] := by
  match file with
  | none => rfl
  | some (.directory _) => rfl
  | some (.file _) => cases other

theorem isSilent_ofDirectory {node : FileTree} (plain : node.hasIgnoreFile = false)
    (names : List String) : (ofDirectory names node).IsSilent := by
  simp only [FileTree.hasIgnoreFile, FileTree.ignoreFiles, List.any_cons, List.any_nil, Bool.or_false,
    Bool.or_eq_false_iff, FileTree.at?, Option.bind_fun_some] at plain
  obtain ⟨general, git, exclude⟩ := plain
  refine ⟨rulesOf_eq_nil general, rulesOf_eq_nil git, rulesOf_eq_nil ?_⟩
  rw [Option.bind_assoc]
  exact exclude

theorem isSilent_above {position : Position}
    (plain : ∀ entry ∈ position.above, entry.2.hasIgnoreFile = false) :
    ∀ level ∈ above position, level.IsSilent := by
  unfold above
  generalize position.above = directories at plain
  induction directories with
  | nil => simp [above.levelsOf]
  | cons entry outer ih =>
      obtain ⟨first, others⟩ := List.forall_mem_cons.mp plain
      exact List.forall_mem_cons.mpr ⟨isSilent_ofDirectory first _, ih others⟩

theorem mem_of_mem_inRepository {levels : List IgnoreLevel} {level : IgnoreLevel}
    (inside : level ∈ inRepository levels) : level ∈ levels := by
  induction levels with
  | nil => exact inside
  | cons first outer ih =>
      rw [inRepository] at inside
      split_ifs at inside
      · rw [List.mem_singleton.mp inside]
        exact List.mem_cons_self
      · rcases List.mem_cons.mp inside with rfl | further
        · exact List.mem_cons_self
        · exact List.mem_cons_of_mem _ (ih further)

theorem judge_eq_none {levels : List IgnoreLevel} (silent : ∀ level ∈ levels, level.IsSilent)
    (names : List String) (isDirectory : Bool) : judge levels names isDirectory = none := by
  have nothing {among : List IgnoreLevel} {rules : IgnoreLevel → List IgnoreRule}
      (empty : ∀ level ∈ among, rules level = []) :
      (among.findSome? fun level => level.verdict rules names isDirectory) = none := by
    rw [List.findSome?_eq_none_iff]
    intro level member
    rw [verdict, empty level member]
    rfl
  have repository : ∀ level ∈ (if levels.any (·.hasGit) then inRepository levels else []),
      level.IsSilent := by
    split_ifs
    · exact fun level member => silent level (mem_of_mem_inRepository member)
    · simp
  simp only [judge, nothing fun level member => (silent level member).general,
    nothing fun level member => (repository level member).git,
    nothing fun level member => (repository level member).exclude]
  rfl

end IgnoreLevel

namespace Walker

/-! ## Going down -/

def isHidden (name : String) : Bool :=
  name.toList.head? == some '.'

theorem passesOver_concat {levels : List IgnoreLevel} (silent : ∀ level ∈ levels, level.IsSilent)
    (names : List String) (name : String) (isDirectory : Bool) :
    passesOver levels (names ++ [name]) isDirectory = isHidden name := by
  rw [passesOver, IgnoreLevel.judge_eq_none silent]
  simp [isHidden]

def goesAlong (walker : Walker) (found : List String) : List String → Bool
  | [] => true
  | name :: rest =>
    !isHidden name && !walker.excluded (Path.ofComponents (found ++ [name])) &&
      walker.goesAlong (found ++ [name]) rest

def keeps (walker : Walker) (found names : List String) : Bool :=
  walker.goesAlong found names && walker.acceptsExtension (Path.ofComponents (found ++ names))

theorem keeps_cons (walker : Walker) (found : List String) (name : String) (rest : List String) :
    walker.keeps found (name :: rest) =
      (!isHidden name && !walker.excluded (Path.ofComponents (found ++ [name])) &&
        walker.keeps (found ++ [name]) rest) := by
  rw [keeps, goesAlong, keeps, List.append_assoc, List.singleton_append, Bool.and_assoc]

theorem goesAlong_iff {walker : Walker} {found names : List String} :
    walker.goesAlong found names ↔ (∀ name ∈ names, isHidden name = false) ∧
      ∀ above, above ≠ [] → above <+: names →
        walker.excluded (Path.ofComponents (found ++ above)) = false := by
  induction names generalizing found with
  | nil =>
      simp only [goesAlong, List.prefix_nil]
      simp +contextual
  | cons name rest ih =>
      rw [goesAlong, Bool.and_eq_true, Bool.and_eq_true, ih, Bool.not_eq_true', Bool.not_eq_true',
        List.forall_mem_cons]
      constructor
      · rintro ⟨⟨shown, first⟩, others, further⟩
        refine ⟨⟨shown, others⟩, fun above nonempty leads => ?_⟩
        obtain rfl | ⟨inner, rfl, inside⟩ := List.prefix_cons_iff.mp leads
        · exact absurd rfl nonempty
        · cases inner with
          | nil => exact first
          | cons next more =>
              have excluded := further (next :: more) (by simp) inside
              rwa [List.append_assoc, List.singleton_append] at excluded
      · rintro ⟨⟨shown, others⟩, excluded⟩
        refine ⟨⟨shown, excluded [name] (by simp) ⟨rest, rfl⟩⟩, others, fun above nonempty leads => ?_⟩
        rw [List.append_assoc, List.singleton_append]
        exact excluded (name :: above) (by simp) (List.cons_prefix_cons.mpr ⟨rfl, leads⟩)

mutual

theorem files_eq_filter (walker : Walker) {levels : List IgnoreLevel}
    (silent : ∀ level ∈ levels, level.IsSilent) (start found : List String) (name : String)
    {tree : FileTree} (plain : tree.IsPlain) :
    walker.files levels start (found ++ [name]) tree =
      ((tree.paths.map (name :: ·)).filter (walker.keeps found)).map (found ++ ·) := by
  cases tree with
  | file bytes =>
      have kept : walker.keeps found [name] =
          (!isHidden name && walker.keepsFile (Path.ofComponents (found ++ [name]))
            (Path.ofComponents (found ++ [name]))) := by
        rw [keeps, goesAlong, goesAlong, Bool.and_true, keepsFile, Bool.and_assoc,
          Bool.and_comm (walker.acceptsExtension _)]
      rw [files, ← List.append_assoc, passesOver_concat silent, FileTree.paths, List.map_singleton,
        ← kept]
      cases keep : walker.keeps found [name] <;> simp [keep]
  | directory entries =>
      obtain ⟨own, below⟩ := FileTree.isPlain_directory.mp plain
      -- The directory adds a level, which has no rules either.
      have deeper : ∀ level ∈
          IgnoreLevel.ofDirectory (start ++ (found ++ [name])) (.directory entries) :: levels,
          level.IsSilent :=
        List.forall_mem_cons.mpr ⟨IgnoreLevel.isSilent_ofDirectory own _, silent⟩
      have along : (found ++ ·) ∘ (name :: ·) = (found ++ [name] ++ · : List String → List String) := by
        funext rest
        simp
      have onward : walker.keeps found ∘ (name :: ·) = fun rest =>
          !isHidden name && !walker.excluded (Path.ofComponents (found ++ [name])) &&
            walker.keeps (found ++ [name]) rest :=
        funext (walker.keeps_cons found name)
      rw [files, filesOf_eq_filter walker deeper start (found ++ [name]) below, ← List.append_assoc,
        passesOver_concat silent, FileTree.paths, List.filter_map, List.map_map, along, onward]
      cases isHidden name
      · cases walker.excluded (Path.ofComponents (found ++ [name])) <;> simp
      · simp

theorem filesOf_eq_filter (walker : Walker) {levels : List IgnoreLevel}
    (silent : ∀ level ∈ levels, level.IsSilent) (start found : List String)
    {entries : List (String × FileTree)} (plain : ∀ entry ∈ entries, entry.2.IsPlain) :
    walker.filesOf levels start found entries =
      ((FileTree.pathsOf entries).filter (walker.keeps found)).map (found ++ ·) := by
  match entries with
  | [] => rfl
  | (name, node) :: rest =>
      obtain ⟨first, others⟩ := List.forall_mem_cons.mp plain
      rw [filesOf, FileTree.pathsOf, List.filter_append, List.map_append,
        files_eq_filter walker silent start found name first,
        filesOf_eq_filter walker silent start found others]

end

/-! ## What is found -/

theorem pairwise_mergeSort_of_nodup {found : List (List String)} (nodup : found.Nodup) :
    (found.mergeSort fun a b => !(decide (b < a))).Pairwise (· < ·) := by
  let le (a b : List String) : Bool := !(decide (b < a))
  have le_iff {a b : List String} : le a b ↔ ¬ b < a := by
    rw [Bool.not_eq_true', decide_eq_false_iff_not]
  have total (a b : List String) : le a b || le b a := by
    rw [Bool.or_eq_true, le_iff, le_iff, List.not_lt, List.not_lt]
    exact List.le_total a b
  have trans (a b c : List String) (first : le a b) (second : le b c) : le a c := by
    rw [le_iff, List.not_lt] at *
    exact List.le_trans first second
  have sorted : (found.mergeSort le).Pairwise fun a b => le a b :=
    List.pairwise_mergeSort trans total found
  have distinct : (found.mergeSort le).Nodup := (List.mergeSort_perm found _).nodup_iff.mpr nodup
  refine (sorted.and distinct).imp fun {a b} both => ?_
  obtain ⟨ordered, apart⟩ := both
  rw [le_iff, List.not_lt] at ordered
  by_contra other
  exact apart (List.le_antisymm ordered (List.not_lt.mp other))

theorem walk_eq_mergeSort (walker : Walker) {position : Position} {entries : List (String × FileTree)}
    (directory : position.node = .directory entries) (plain : position.node.IsPlain)
    (plainAbove : ∀ entry ∈ position.above, entry.2.hasIgnoreFile = false) :
    walker.walk position =
      (position.node.paths.filter (walker.keeps [])).mergeSort fun a b => !(decide (b < a)) := by
  obtain ⟨node, directories⟩ := position
  subst directory
  obtain ⟨own, below⟩ := FileTree.isPlain_directory.mp plain
  have silent := List.forall_mem_cons.mpr
    ⟨IgnoreLevel.isSilent_ofDirectory own (Position.names ⟨.directory entries, directories⟩),
      IgnoreLevel.isSilent_above plainAbove⟩
  have found := filesOf_eq_filter walker silent (Position.names ⟨.directory entries, directories⟩) []
    below
  simp only [List.nil_append, List.map_id'] at found
  rw [walk]
  simp only [found, FileTree.paths]

def MatchesAny (patterns : List String) (path : String) : Prop :=
  ∃ pattern ∈ patterns, ∃ glob, Glob.parse? pattern = some glob ∧ glob.accepts false path

theorem mem_globs_iff {patterns : List String} {globs : List Glob}
    (read : patterns.mapM Glob.parse? = some globs) {glob : Glob} :
    glob ∈ globs ↔ ∃ pattern ∈ patterns, Glob.parse? pattern = some glob := by
  induction patterns generalizing globs with
  | nil =>
      obtain rfl := Option.some.inj read
      simp
  | cons pattern rest ih =>
      simp only [List.mapM_cons, bind, pure, Option.bind_eq_some_iff, Option.some.injEq] at read
      obtain ⟨first, parsed, others, further, rfl⟩ := read
      simp [ih further, parsed, eq_comm]

theorem excluded_iff {patterns extensions : List String} {walker : Walker}
    (valid : ofPatterns? patterns extensions = some walker) (path : String) :
    walker.excluded path ↔ MatchesAny patterns path := by
  obtain ⟨globs, read, rfl⟩ := Option.map_eq_some_iff.mp valid
  simp only [excluded, withExtensions, List.any_eq_true, mem_globs_iff read, MatchesAny]
  constructor
  · rintro ⟨glob, ⟨pattern, given, parsed⟩, accepted⟩
    exact ⟨pattern, given, glob, parsed, accepted⟩
  · rintro ⟨pattern, given, glob, parsed, accepted⟩
    exact ⟨glob, ⟨pattern, given, parsed⟩, accepted⟩

/-- A walk from a directory without ignore files finds exactly the files to which a path leads that has no
hidden name, of which neither the whole nor a beginning is matched by an exclude glob, and whose extension is
kept: each once, by increasing components. Where there is nothing to start from it finds nothing. -/
theorem walkFrom_exact {patterns extensions : List String} {walker : Walker}
    (valid : ofPatterns? patterns extensions = some walker) (disk : Disk) (root : String) :
    (disk.locate? root = none → walker.walkFrom disk root = []) ∧
    ∀ position, disk.locate? root = some position → position.node.isDirectory →
      position.node.IsUnambiguous → position.node.IsPlain →
      (∀ entry ∈ position.above, entry.2.hasIgnoreFile = false) →
        (∀ names, names ∈ walker.walkFrom disk root ↔
          (∃ bytes, position.node.at? names = some (.file bytes)) ∧
          (∀ name ∈ names, isHidden name = false) ∧
          (∀ above, above ≠ [] → above <+: names → ¬ MatchesAny patterns (Path.ofComponents above)) ∧
          walker.acceptsExtension (Path.ofComponents names)) ∧
        (walker.walkFrom disk root).Pairwise (· < ·) := by
  constructor
  · intro missing
    rw [walkFrom, missing]
  · intro position located isDirectory unambiguous plain plainAbove
    obtain ⟨entries, directory⟩ : ∃ entries, position.node = .directory entries := by
      cases node : position.node with
      | file bytes => simp [node, FileTree.isDirectory] at isDirectory
      | directory entries => exact ⟨entries, rfl⟩
    have walked : walker.walkFrom disk root =
        (position.node.paths.filter (walker.keeps [])).mergeSort fun a b => !(decide (b < a)) := by
      rw [walkFrom, located]
      exact walk_eq_mergeSort walker directory plain plainAbove
    rw [walked]
    refine ⟨fun names => ?_, ?_⟩
    · simp only [List.mem_mergeSort, List.mem_filter, FileTree.mem_paths unambiguous, keeps,
        Bool.and_eq_true, goesAlong_iff, List.nil_append, ← excluded_iff valid, Bool.not_eq_true,
        and_assoc]
    · exact pairwise_mergeSort_of_nodup ((FileTree.nodup_paths unambiguous).filter _)

def builtProject : FileTree :=
  .directory [("target", .directory [("gen", .directory [("Gen.java", .file [])])]),
    ("src", .directory [("KeepTest.java", .file []), ("Keep.java", .file []), ("Also.JAVA", .file [])]),
    (".cache", .directory [("Old.java", .file [])]), ("notes.txt", .file [])]

def builtDisk : Disk :=
  ⟨.directory [("p", builtProject)], []⟩

def builtPatterns : List String :=
  ["target/**", "**/*Test.java"]

def builtWalker : Walker :=
  (ofPatterns? builtPatterns ["java"]).getD ⟨[], []⟩

theorem walkFrom_exact_builtProject :
    (ofPatterns? builtPatterns ["java"] = some builtWalker ∧
      ∃ position, builtDisk.locate? "/p" = some position ∧ position.node.isDirectory ∧
        position.node.IsUnambiguous ∧ position.node.IsPlain ∧
        ∀ entry ∈ position.above, entry.2.hasIgnoreFile = false) ∧
    ["src", "Keep.java"] ∈ builtWalker.walkFrom builtDisk "/p" ∧
    ["target", "gen", "Gen.java"] ∉ builtWalker.walkFrom builtDisk "/p" ∧
    (builtWalker.walkFrom builtDisk "/p").Pairwise (· < ·) := by
  have valid : ofPatterns? builtPatterns ["java"] = some builtWalker := by
    have read : (ofPatterns? builtPatterns ["java"]).isSome := by decide +kernel
    obtain ⟨walker, found⟩ := Option.isSome_iff_exists.mp read
    rw [builtWalker, found, Option.getD_some]
  have place : builtDisk.locate? "/p" = some ⟨builtProject, [("p", builtDisk.top)]⟩ := rfl
  have unambiguous : builtProject.IsUnambiguous := by decide +kernel
  have plain : builtProject.IsPlain := by decide +kernel
  have plainAbove : ∀ entry ∈ [("p", builtDisk.top)], entry.2.hasIgnoreFile = false := by
    decide +kernel
  obtain ⟨exact, sorted⟩ :=
    (walkFrom_exact valid builtDisk "/p").2 _ place rfl unambiguous plain plainAbove
  refine ⟨⟨valid, _, place, rfl, unambiguous, plain, plainAbove⟩, ?_, fun member => ?_, sorted⟩
  · have along := goesAlong_iff.mp
      (by decide +kernel : builtWalker.goesAlong [] ["src", "Keep.java"] = true)
    refine (exact _).mpr ⟨⟨[], rfl⟩, along.1, fun above nonempty leads hit => ?_, by decide +kernel⟩
    have unmatched := along.2 above nonempty leads
    rw [List.nil_append, (excluded_iff valid _).mpr hit] at unmatched
    cases unmatched
  · have hit : MatchesAny builtPatterns "target/gen" := (excluded_iff valid _).mp (by decide +kernel)
    exact ((exact _).mp member).2.2.1 ["target", "gen"] (by simp) ⟨["Gen.java"], rfl⟩ hit

end Walker

end CallContext
