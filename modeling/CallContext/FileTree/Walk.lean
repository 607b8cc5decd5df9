import CallContext.FileTree
import CallContext.FileTree.IgnoreRules

/-!
Walking through a directory. Entries whose names begin with a dot are passed over, and so is what
ignore files exclude: `.ignore` files always, the files of git inside a repository only. Directories
that an exclude glob matches are not entered.
-/

namespace CallContext

structure Walker where
  excludes : List Glob
  /-- The extensions of the files that are kept, in small letters and without dots before them; all
  files if there are none. -/
  extensions : List String

structure IgnoreLevel where
  directory : List String
  hasGit : Bool
  general : List IgnoreRule
  git : List IgnoreRule
  exclude : List IgnoreRule

namespace IgnoreLevel

def rulesOf (file : Option FileTree) : List IgnoreRule :=
  match file with
  | some (.file bytes) => IgnoreRules.parse (String.ofList (Text.decodeUtf8 bytes))
  | _ => []

def ofDirectory (names : List String) (node : FileTree) : IgnoreLevel where
  directory := names
  hasGit := (node.child? ".git").isSome
  general := rulesOf (node.child? ".ignore")
  git := rulesOf (node.child? ".gitignore")
  exclude := rulesOf (((node.child? ".git").bind (·.child? "info")).bind (·.child? "exclude"))

def verdict (level : IgnoreLevel) (rules : IgnoreLevel → List IgnoreRule) (names : List String)
    (isDirectory : Bool) : Option Verdict :=
  IgnoreRules.verdict (rules level) (Path.ofComponents (names.drop level.directory.length))
    isDirectory

def inRepository : List IgnoreLevel → List IgnoreLevel
  | [] => []
  | level :: outer => if level.hasGit then [level] else level :: inRepository outer

def judge (levels : List IgnoreLevel) (names : List String) (isDirectory : Bool) :
    Option Verdict :=
  let said (among : List IgnoreLevel) (rules : IgnoreLevel → List IgnoreRule) :=
    among.findSome? fun level => level.verdict rules names isDirectory
  -- Without a repository the files of git do not count; `.ignore` files outrank them everywhere.
  let repository := if levels.any (·.hasGit) then inRepository levels else []
  said levels (·.general) <|> said repository (·.git) <|> said repository (·.exclude)

def above (position : Position) : List IgnoreLevel :=
  levelsOf position.above
where
  levelsOf : List (String × FileTree) → List IgnoreLevel
    | [] => []
    | (_, node) :: outer => ofDirectory (outer.map (·.1)).reverse node :: levelsOf outer

end IgnoreLevel

namespace Walker

def withExtensions (walker : Walker) (extensions : List String) : Walker :=
  { walker with extensions := extensions.map fun written => Path.lowered (Path.withoutDots written) }

def ofPatterns? (patterns extensions : List String) : Option Walker :=
  (patterns.mapM Glob.parse?).map fun excludes => withExtensions ⟨excludes, []⟩ extensions

def excluded (walker : Walker) (path : String) : Bool :=
  walker.excludes.any (·.accepts false path)

def acceptsExtension (walker : Walker) (path : String) : Bool :=
  walker.extensions.isEmpty || (Path.extension path).any fun ending =>
    walker.extensions.any fun kept => Path.sameLetters kept ending

def keepsFile (walker : Walker) (name path : String) : Bool :=
  walker.acceptsExtension name && !walker.excluded path

def passesOver (levels : List IgnoreLevel) (names : List String) (isDirectory : Bool) : Bool :=
  match IgnoreLevel.judge levels names isDirectory with
  | some .ignored => true
  | some .kept => false
  | none => (names.getLast?).any fun name => name.toList.head? == some '.'

mutual

def files (walker : Walker) (levels : List IgnoreLevel) (start found : List String) :
    FileTree → List (List String)
  | .file _ =>
    let path := Path.ofComponents found
    if !passesOver levels (start ++ found) false && walker.keepsFile path path then [found] else []
  | .directory entries =>
    if passesOver levels (start ++ found) true || walker.excluded (Path.ofComponents found) then []
    else walker.filesOf (IgnoreLevel.ofDirectory (start ++ found) (.directory entries) :: levels)
      start found entries

def filesOf (walker : Walker) (levels : List IgnoreLevel) (start found : List String) :
    List (String × FileTree) → List (List String)
  | [] => []
  | (name, node) :: rest =>
    walker.files levels start (found ++ [name]) node ++ walker.filesOf levels start found rest

end

/-- The files at or below a place, as the names that lead to them from there, in the order of their
components. The place itself is never passed over. -/
def walk (walker : Walker) (position : Position) : List (List String) :=
  match position.node with
  -- No names lead from a file to itself, so its path is empty for the globs.
  | .file _ => if walker.keepsFile (Path.ofComponents position.names) "" then [[]] else []
  | .directory entries =>
    let level := IgnoreLevel.ofDirectory position.names position.node
    let found := walker.filesOf (level :: IgnoreLevel.above position) position.names [] entries
    found.mergeSort fun a b => !(decide (b < a))

def walkFrom (walker : Walker) (disk : Disk) (path : String) : List (List String) :=
  match disk.locate? path with
  | some position => walker.walk position
  | none => []

end Walker

end CallContext
