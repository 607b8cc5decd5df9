import CallContext.Text.Word

/-!
Words of Java source as they are spelled. Every keyword is spelled like an identifier, so a name that is
read from the source may well be one.
-/

namespace CallContext.Java

def isIdentifier (text : String) : Bool :=
  match text.toList with
  | [] => false
  | first :: rest => Text.isIdentifierStart first && rest.all Text.isIdentifierPart

structure Identifier where
  text : String
  proper : isIdentifier text
  deriving DecidableEq, Repr

namespace Identifier

def this : Identifier := ⟨"this", by decide⟩

instance : Inhabited Identifier := ⟨this⟩

end Identifier

end CallContext.Java
