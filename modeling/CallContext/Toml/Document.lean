import CallContext.Toml.Reader

/-!
Reading whole TOML documents. A document sets keys in tables that are opened by headers. No key is set
twice, and no table is opened twice; tables that only the way to others has made may still be opened.
-/

namespace CallContext.Toml

inductive Origin where
  /-- It is on the way to a table with a header. -/
  | passed
  /-- It is on the way to a key with dots. -/
  | dotted
  | opened
  deriving DecidableEq, Repr

inductive Node where
  | value (found : Toml)
  | table (origin : Origin) (entries : List (String × Node))
  /-- Tables with the same header in double brackets, last first; each by its entries. -/
  | tables (items : List (List (String × Node)))
  deriving Inhabited

abbrev Entries := List (String × Node)

namespace Document

/-- The entries with one changed; `change` has the old node, and fails if it may not be changed. -/
def alter (name : String) (change : Option Node → Option Node) : Entries → Option Entries
  | [] => (change none).map fun node => [(name, node)]
  | (other, node) :: rest =>
    if other = name then (change (some node)).map fun changed => (other, changed) :: rest
    else (alter name change rest).map ((other, node) :: ·)

def atHeader (change : String → Entries → Option Entries) : List String → Entries → Option Entries
  | [], _ => none
  | [last], entries => change last entries
  | name :: rest, entries => alter name (fun
    | none => (atHeader change rest []).map (.table .passed)
    | some (.table origin inner) => (atHeader change rest inner).map (.table origin)
    -- Of the tables with one header the last one is meant.
    | some (.tables (inner :: others)) =>
      (atHeader change rest inner).map fun changed => .tables (changed :: others)
    | some _ => none) entries

def openTable (name : String) : Entries → Option Entries :=
  alter name fun
    | none => some (.table .opened [])
    | some (.table .passed entries) => some (.table .opened entries)
    | some _ => none

def addTable (name : String) : Entries → Option Entries :=
  alter name fun
    | none => some (.tables [[]])
    | some (.tables items) => some (.tables ([] :: items))
    | some _ => none

def setKey (value : Node) : List String → Entries → Option Entries
  | [], _ => none
  | [last], entries => alter last (fun
    | none => some value
    | some _ => none) entries
  | name :: rest, entries => alter name (fun
    | none => (setKey value rest []).map (.table .dotted)
    -- A table with a header of its own is complete.
    | some (.table .opened _) => none
    | some (.table origin inner) => (setKey value rest inner).map (.table origin)
    | some _ => none) entries

def inCurrent (change : Entries → Option Entries) : List String → Entries → Option Entries
  | [], entries => change entries
  | name :: rest, entries => alter name (fun
    | some (.table origin inner) => (inCurrent change rest inner).map (.table origin)
    | some (.tables (inner :: others)) =>
      (inCurrent change rest inner).map fun changed => .tables (changed :: others)
    | _ => none) entries

mutual

def Node.toToml : Node → Toml
  | .value found => found
  | .table _ entries => .table (entriesToToml entries)
  | .tables items => .array (tablesToToml items).reverse

def entriesToToml : List (String × Node) → List (String × Toml)
  | [] => []
  | (name, node) :: rest => (name, Node.toToml node) :: entriesToToml rest

def tablesToToml : List (List (String × Node)) → List Toml
  | [] => []
  | first :: rest => .table (entriesToToml first) :: tablesToToml rest

end

end Document

namespace Reader

open Document

def arrayItems (item : Reading Toml) : Nat → Reading (List Toml)
  | 0, _ => none
  | limit + 1, text =>
    let lines := text.length + 1
    match skipLines lines text with
    | ']' :: rest => some ([], rest)
    | start => do
      let (first, afterFirst) ← item start
      match skipLines lines afterFirst with
      | ',' :: rest =>
        let (others, remaining) ← arrayItems item limit rest
        return (first :: others, remaining)
      | ']' :: rest => return ([first], rest)
      | _ => none

def keyValue (value : Reading Toml) (text : List Char) :
    Option ((List String × Toml) × List Char) := do
  let (path, afterKey) ← key (text.length + 1) text
  match skip afterKey with
  | '=' :: rest =>
    let (found, remaining) ← value (skip rest)
    return ((path, found), remaining)
  | _ => none

def inlineEntries (value : Reading Toml) : Nat → Entries → Reading Entries
  | 0, _, _ => none
  | limit + 1, before, text => do
    let ((path, found), afterValue) ← keyValue value (skip text)
    let entries ← setKey (.value found) path before
    match skip afterValue with
    | ',' :: rest => inlineEntries value limit entries rest
    | '}' :: rest => return (entries, rest)
    | _ => none

/-- A value, in which brackets nest at most as deep as the number says. -/
def value : Nat → Reading Toml
  | 0, _ => none
  | depth + 1, text => match text with
    | '"' :: _ => (string text).map fun (found, rest) => (.string found, rest)
    | '\'' :: _ => (string text).map fun (found, rest) => (.string found, rest)
    | '[' :: rest =>
      (arrayItems (value depth) (text.length + 1) rest).map fun (items, left) => (.array items, left)
    | '{' :: rest => match skip rest with
      | '}' :: left => some (.table [], left)
      | start => (inlineEntries (value depth) (text.length + 1) [] start).map
          fun (entries, left) => (.table (entriesToToml entries), left)
    | _ => scalar text

/-- The lines of a document: the entries so far, the header in force, and the rest of the text. -/
def lines : Nat → List String → Entries → List Char → Option Entries
  | 0, _, _, _ => none
  | limit + 1, current, entries, text =>
    let length := text.length + 1
    match skip text with
    | [] => some entries
    | '[' :: '[' :: rest => do
      let (path, afterKey) ← key length rest
      match skip afterKey with
      | ']' :: ']' :: after =>
        lines limit path (← atHeader addTable path entries) (← endLine after)
      | _ => none
    | '[' :: rest => do
      let (path, afterKey) ← key length rest
      match skip afterKey with
      | ']' :: after =>
        lines limit path (← atHeader openTable path entries) (← endLine after)
      | _ => none
    | start => match endLine start with
      | some after => lines limit current entries after
      | none => do
        let ((path, found), afterValue) ← keyValue (value length) start
        lines limit current (← inCurrent (setKey (.value found) path) current entries)
          (← endLine afterValue)

end Reader

def parse? (text : String) : Option (List (String × Toml)) :=
  let characters := match text.toList with
    | '\uFEFF' :: rest => rest
    | all => all
  (Reader.lines (characters.length + 2) [] [] characters).map Document.entriesToToml

end CallContext.Toml
