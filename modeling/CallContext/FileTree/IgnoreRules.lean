import CallContext.Glob.Reader
import CallContext.Text.Blank
import CallContext.Text.Lines

/-!
Ignore files: lists of patterns for the files below a directory. A later rule overrides an earlier
one, and an exclamation mark makes a rule that keeps what it matches.
-/

namespace CallContext

structure IgnoreRule where
  glob : Glob
  keeps : Bool
  directoriesOnly : Bool
  deriving Inhabited, Repr

inductive Verdict where
  | ignored
  | kept
  deriving DecidableEq, Repr

namespace IgnoreRule

def trimLine (line : List Char) : List Char :=
  match line.reverse with
  | ' ' :: '\\' :: _ => line
  | _ => Text.trimEnd line

/-- Splits off the marks at the beginning of a line: whether the rule keeps what it matches, whether
it is bound to the directory of the file, and the pattern after that. -/
def marks (line : List Char) : Bool × Bool × List Char :=
  match line with
  | '\\' :: '!' :: rest => (false, false, '!' :: rest)
  | '\\' :: '#' :: rest => (false, false, '#' :: rest)
  | '!' :: '/' :: rest => (true, true, rest)
  | '!' :: rest => (true, false, rest)
  | '/' :: rest => (false, true, rest)
  | _ => (false, false, line)

/-- Splits off the slash at the end of a pattern, and a backslash before it: whether there was one,
and what precedes it. -/
def directoryMark (pattern : List Char) : Bool × List Char :=
  match pattern.reverse with
  | '/' :: '\\' :: before => (true, before.reverse)
  | '/' :: before => (true, before.reverse)
  | _ => (false, pattern)

/-- The glob that a pattern stands for. A pattern without slashes matches at any depth, and two stars
at the end match only what is inside a directory. -/
def globText (bound : Bool) (pattern : List Char) : List Char :=
  let anywhere := !bound && !pattern.contains '/' && pattern != ['*', '*']
  let full := if anywhere then "**/".toList ++ pattern else pattern
  if "/**".toList.isSuffixOf full then full ++ "/*".toList else full

def parse? (line : List Char) : Option IgnoreRule :=
  if line.head? == some '#' then none
  else
    let trimmed := trimLine line
    if trimmed.isEmpty then none
    else
      let (keeps, bound, rest) := marks trimmed
      let (directoriesOnly, pattern) := directoryMark rest
      (Glob.parse? (String.ofList (globText bound pattern))).map fun glob =>
        ⟨glob, keeps, directoriesOnly⟩

def concerns (rule : IgnoreRule) (path : String) (isDirectory : Bool) : Bool :=
  (isDirectory || !rule.directoriesOnly) && rule.glob.accepts true path

end IgnoreRule

namespace IgnoreRules

def parse (text : String) : List IgnoreRule :=
  let characters := match text.toList with
    | '\uFEFF' :: rest => rest
    | all => all
  (Text.lines characters).filterMap IgnoreRule.parse?

/-- What some rules say about a path: the last rule that is about it decides. -/
def verdict (rules : List IgnoreRule) (path : String) (isDirectory : Bool) : Option Verdict :=
  (rules.reverse.find? (·.concerns path isDirectory)).map fun rule =>
    if rule.keeps then .kept else .ignored

end IgnoreRules

end CallContext
