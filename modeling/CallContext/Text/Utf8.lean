/-!
Decoding UTF-8. Bytes that are no part of a well-formed sequence become U+FFFD: one for each longest
beginning of a well-formed sequence, and one for each byte that begins none.
-/

namespace CallContext.Text

def replacement : Char := '\uFFFD'

/-- What a leading byte announces: the bits it contributes and the ranges of the bytes that have to
follow it. Overlong forms, surrogates and values above U+10FFFF are outside these ranges. -/
def announced (lead : Nat) : Option (Nat × List (Nat × Nat)) :=
  if lead < 0x80 then some (lead, [])
  else if 0xc2 ≤ lead && lead ≤ 0xdf then some (lead - 0xc0, [(0x80, 0xbf)])
  else if lead == 0xe0 then some (0, [(0xa0, 0xbf), (0x80, 0xbf)])
  else if lead == 0xed then some (0xd, [(0x80, 0x9f), (0x80, 0xbf)])
  else if 0xe1 ≤ lead && lead ≤ 0xef then some (lead - 0xe0, [(0x80, 0xbf), (0x80, 0xbf)])
  else if lead == 0xf0 then some (0, [(0x90, 0xbf), (0x80, 0xbf), (0x80, 0xbf)])
  else if 0xf1 ≤ lead && lead ≤ 0xf3 then
    some (lead - 0xf0, [(0x80, 0xbf), (0x80, 0xbf), (0x80, 0xbf)])
  else if lead == 0xf4 then some (4, [(0x80, 0x8f), (0x80, 0xbf), (0x80, 0xbf)])
  else none

/-- Reads the bytes that have to follow. Answers the character if all of them are there, and the
number of bytes that were in place. -/
def follow (value : Nat) : List (Nat × Nat) → List UInt8 → Option Char × Nat
  | [], _ => (some (Char.ofNat value), 0)
  | _ :: _, [] => (none, 0)
  | range :: ranges, byte :: rest =>
    if range.1 ≤ byte.toNat && byte.toNat ≤ range.2 then
      let (character, count) := follow (64 * value + byte.toNat % 64) ranges rest
      (character, count + 1)
    else (none, 0)

def decodeUtf8 : List UInt8 → List Char
  | [] => []
  | lead :: rest =>
    match announced lead.toNat with
    | none => replacement :: decodeUtf8 rest
    | some (bits, ranges) =>
      let (character, count) := follow bits ranges rest
      character.getD replacement :: decodeUtf8 (rest.drop count)
termination_by bytes => bytes.length
decreasing_by
  all_goals simp only [List.length_cons, List.length_drop]; omega

/-- The text that bytes encode; `none` if they are not well-formed. They are well-formed if the decoded
text has them as its encoding. -/
def readUtf8? (bytes : List UInt8) : Option String :=
  let text := String.ofList (decodeUtf8 bytes)
  if text.toUTF8.toList == bytes then some text else none

end CallContext.Text
