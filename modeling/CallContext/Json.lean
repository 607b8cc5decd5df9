import CallContext.Text.Numeral

/-!
JSON values. An object keeps its members in the order in which they are written, repeated names
included; a number keeps its spelling.
-/

namespace CallContext

inductive Json where
  | null
  | bool (value : Bool)
  | number (spelling : String)
  | string (text : String)
  | array (items : List Json)
  | object (members : List (String × Json))
  deriving Inhabited, Repr

namespace Json

def ofNat (value : Nat) : Json := .number (toString value)

def string? : Json → Option String
  | .string text => some text
  | _ => none

def array? : Json → Option (List Json)
  | .array items => some items
  | _ => none

def object? : Json → Option (List (String × Json))
  | .object members => some members
  | _ => none

def bool? : Json → Option Bool
  | .bool value => some value
  | _ => none

def nat? : Json → Option Nat
  | .number spelling => Text.readNumber spelling.toList
  | _ => none

def strings? (value : Json) : Option (List String) := do
  (← value.array?).mapM string?

/-- The last member of an object with the given name. -/
def member? (value : Json) (name : String) : Option Json := do
  let members ← value.object?
  (members.reverse.find? (·.1 == name)).map (·.2)

end Json

end CallContext
