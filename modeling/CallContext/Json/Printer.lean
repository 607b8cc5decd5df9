import CallContext.Json

/-!
Writing JSON, either on one line without spaces or with one member or item to a line, indented by two
spaces for each enclosing bracket. Empty brackets stay together.
-/

namespace CallContext.Json

namespace Printer

def hexDigit (value : Nat) : Char :=
  if value < 10 then Char.ofNat ('0'.toNat + value) else Char.ofNat ('a'.toNat + value - 10)

def escape (c : Char) : List Char :=
  match c with
  | '"' => ['\\', '"']
  | '\\' => ['\\', '\\']
  | '\x08' => ['\\', 'b']
  | '\x0c' => ['\\', 'f']
  | '\n' => ['\\', 'n']
  | '\r' => ['\\', 'r']
  | '\t' => ['\\', 't']
  | _ =>
    if c.toNat < 0x20 then
      ['\\', 'u', '0', '0', hexDigit (c.toNat / 16), hexDigit (c.toNat % 16)]
    else [c]

def quote (text : String) : String :=
  String.ofList ('"' :: text.toList.flatMap escape ++ ['"'])

def newLine (indentation : Nat) : String :=
  "\n" ++ String.ofList (List.replicate (2 * indentation) ' ')

end Printer

mutual

def compact : Json → String
  | .null => "null"
  | .bool value => if value then "true" else "false"
  | .number spelling => spelling
  | .string text => Printer.quote text
  | .array items => "[" ++ compactItems items ++ "]"
  | .object members => "\x7b" ++ compactMembers members ++ "\x7d"

def compactItems : List Json → String
  | [] => ""
  | first :: rest => first.compact ++ (if rest.isEmpty then "" else ",") ++ compactItems rest

def compactMembers : List (String × Json) → String
  | [] => ""
  | (name, value) :: rest =>
    Printer.quote name ++ ":" ++ value.compact ++ (if rest.isEmpty then "" else ",") ++
      compactMembers rest

end

mutual

def prettyAt (depth : Nat) : Json → String
  | .null => "null"
  | .bool value => if value then "true" else "false"
  | .number spelling => spelling
  | .string text => Printer.quote text
  | .array [] => "[]"
  | .array (first :: rest) =>
    "[" ++ prettyItems (depth + 1) (first :: rest) ++ Printer.newLine depth ++ "]"
  | .object [] => "\x7b\x7d"
  | .object (first :: rest) =>
    "\x7b" ++ prettyMembers (depth + 1) (first :: rest) ++ Printer.newLine depth ++ "\x7d"

def prettyItems (depth : Nat) : List Json → String
  | [] => ""
  | first :: rest =>
    Printer.newLine depth ++ first.prettyAt depth ++ (if rest.isEmpty then "" else ",") ++
      prettyItems depth rest

def prettyMembers (depth : Nat) : List (String × Json) → String
  | [] => ""
  | (name, value) :: rest =>
    Printer.newLine depth ++ Printer.quote name ++ ": " ++ value.prettyAt depth ++
      (if rest.isEmpty then "" else ",") ++ prettyMembers depth rest

end

def pretty (value : Json) : String :=
  value.prettyAt 0

end CallContext.Json
