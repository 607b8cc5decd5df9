import CallContext.Text.CodeRange

/-!
The number of terminal columns that a text takes: two for East Asian wide characters and emoji, none
for marks and joiners, one for nearly everything else, control characters included.
-/

namespace CallContext.Text

def columns (c : Char) : Nat :=
  if c.toNat < 0x80 then 1
  -- The Khmer sign that stands for three letters.
  else if c.toNat = 0x17d8 then 3
  else if inRanges CodeRange.zeroWidth c then 0
  else if inRanges CodeRange.wide c then 2
  else 1

def width (text : String) : Nat :=
  text.toList.foldl (fun total c => total + columns c) 0

end CallContext.Text
