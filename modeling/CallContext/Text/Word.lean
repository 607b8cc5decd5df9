import CallContext.Text.CodeRange

namespace CallContext.Text

def isWordPart (c : Char) : Bool :=
  if c.toNat < 0x80 then c.isAlphanum || c == '_' else inRanges CodeRange.wordPart c

def isIdentifierStart (c : Char) : Bool :=
  if c.toNat < 0x80 then c.isAlpha || c == '_' || c == '$' else inRanges CodeRange.identifierStart c

/-- Characters that may continue an identifier; the cent sign is one of them. -/
def isIdentifierPart (c : Char) : Bool :=
  if c.toNat < 0x80 then c.isAlphanum || c == '_' || c == '$'
  else c == '¢' || inRanges CodeRange.identifierPart c

end CallContext.Text
