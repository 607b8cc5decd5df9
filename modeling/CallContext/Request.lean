import CallContext.CallGraph.Chains
import CallContext.Diff.Scan
import CallContext.Json.Reader

namespace CallContext

structure Request where
  changedFiles : List String
  changedMethods : Option ChangedMethods
  up : Nat
  down : Nat
  style : ChainStyle

inductive RequestError where
  | rootNotFound (root : String)
  | noChangedFiles
  | changedMethods
  deriving DecidableEq, Repr

namespace RequestError

def message : RequestError → String
  | .rootNotFound root => "project root not found: " ++ root
  | .noChangedFiles => "no changed files were given"
  | .changedMethods => "invalid changed-methods JSON"

end RequestError

namespace Request

def parseChangedFiles (written : String) : Except RequestError (List String) :=
  let paths := ((Text.splitAt ',' written.toList).map fun path =>
    Path.normalize (String.ofList path)).filter (!·.isEmpty)
  if paths.isEmpty then .error .noChangedFiles else .ok paths

def lastEntries {ν : Type} (entries : List (String × ν)) : Table String ν :=
  entries.foldl (fun table entry => table.put entry.1 entry.2) Table.empty

def methodEntries (value : Json) : Option (List (String × List String)) := do
  (← value.object?).mapM fun (path, names) => do return (path, ← names.strings?)

/-- Reads changed methods from a JSON object of arrays of names. Of equal paths the last one counts,
as written and also once they are normalized. -/
def parseChangedMethods (written : String) : Except RequestError ChangedMethods :=
  match (Json.parse? written).bind methodEntries with
  | some entries =>
    .ok (lastEntries ((lastEntries entries).toList.map fun (path, names) =>
      (Path.normalize path, names)))
  | none => .error .changedMethods

def namesFor (request : Request) (path : String) : Option (List String) :=
  (request.changedMethods.bind (·.get? path)).filter (!·.isEmpty)

/-- The depth that counts: the given one, else the one in the environment, else the last one. -/
def pickDepth (flag : Option Nat) (environment : Option String) (fallback : Nat) : Nat :=
  match flag with
  | some depth => depth
  | none => (environment.bind fun text => Text.readNumber (Text.trim text.toList)).getD fallback

end Request

end CallContext
