import CallContext.Java.Parser.Type
import CallContext.Proofs.Java.Parser
import CallContext.Proofs.Text.Cut

namespace CallContext.Java

/-- The words that mean something to the language in one place or another: keywords, contextual keywords
and literals. -/
def reservedWords : List String :=
  ["abstract", "assert", "boolean", "break", "byte", "case", "catch", "char", "class", "const",
    "continue", "default", "do", "double", "else", "enum", "extends", "final", "finally", "float", "for",
    "goto", "if", "implements", "import", "instanceof", "int", "interface", "long", "native", "new",
    "package", "private", "protected", "public", "return", "short", "static", "strictfp", "super",
    "switch", "synchronized", "this", "throw", "throws", "transient", "try", "void", "volatile", "while",
    "_", "true", "false", "null", "exports", "module", "non-sealed", "open", "opens", "permits",
    "provides", "record", "requires", "sealed", "to", "transitive", "uses", "var", "when", "with",
    "yield"]

structure FreeName extends Identifier where
  free : text ∉ reservedWords
  deriving DecidableEq, Repr

namespace FreeName

variable (name : FreeName)

theorem text_ne {word : String} (reserved : word ∈ reservedWords) : name.text ≠ word := by
  rintro same
  exact name.free (same ▸ reserved)

theorem not_contains {words : List String} (reserved : ∀ word ∈ words, word ∈ reservedWords) :
    words.contains name.text = false := by
  rw [List.contains_eq_mem, decide_eq_false_iff_not]
  exact fun member => name.free (reserved _ member)

theorem isOneOf_word {words : List String} (reserved : ∀ word ∈ words, word ∈ reservedWords)
    (place : Place) : (place.word name.toIdentifier).isOneOf words = false :=
  name.not_contains reserved

end FreeName

structure DottedName where
  first : FreeName
  others : List FreeName
  deriving DecidableEq, Repr

namespace DottedName

variable (name : DottedName)

def text : String :=
  Text.joinWith "." ((name.first :: name.others).map (·.text))

def dotted (other : FreeName) : List Piece :=
  [.sign .dot, .word other.toIdentifier]

def pieces : List Piece :=
  .word name.first.toIdentifier :: name.others.flatMap dotted

end DottedName

inductive WrittenType where
  | named (name : DottedName) (arguments : List WrittenType) (isArray : Bool)

namespace WrittenType

def inAngles (texts : List String) : String :=
  if texts.isEmpty then "" else "<" ++ Text.joinWith ", " texts ++ ">"

def brackets (isArray : Bool) : String :=
  if isArray then "[]" else ""

mutual

def text : WrittenType → String
  | named name arguments isArray => name.text ++ inAngles (texts arguments) ++ brackets isArray

def texts : List WrittenType → List String
  | [] => []
  | first :: rest => first.text :: texts rest

end

def erased : WrittenType → String
  | named name _ isArray => name.text ++ brackets isArray

def bracketPieces (isArray : Bool) : List Piece :=
  if isArray then [.sign .openBracket, .sign .closeBracket] else []

mutual

def pieces : WrittenType → List Piece
  | named name arguments isArray => name.pieces ++ anglePieces arguments ++ bracketPieces isArray

def anglePieces : List WrittenType → List Piece
  | [] => []
  | first :: rest => .sign .openAngle :: (first.pieces ++ (commaPieces rest ++ [.sign .closeAngle]))

def commaPieces : List WrittenType → List Piece
  | [] => []
  | first :: rest => .sign .comma :: .space :: (first.pieces ++ commaPieces rest)

end

end WrittenType

theorem DottedName.spell_pieces (name : DottedName) : Piece.spell name.pieces = name.text.toList := by
  rw [text, List.map_cons, Text.toList_joinWith_cons, List.flatMap_map, pieces, Piece.spell_cons,
    Piece.spell, List.flatMap_assoc]
  simp [dotted, Piece.chars, Sign.char]

namespace WrittenType

open Piece

mutual

theorem spell_pieces : ∀ type : WrittenType, spell type.pieces = type.text.toList
  | named name arguments isArray => by
    rw [pieces, text, spell_append, spell_append, name.spell_pieces, spell_anglePieces arguments]
    cases isArray <;> simp [bracketPieces, brackets, chars, Sign.char]

theorem spell_anglePieces : ∀ arguments : List WrittenType,
    spell (anglePieces arguments) = (inAngles (texts arguments)).toList
  | [] => rfl
  | first :: rest => by
    rw [anglePieces, texts, inAngles, List.isEmpty_cons, if_neg Bool.false_ne_true, String.toList_append,
      String.toList_append, Text.toList_joinWith_cons, ← spell_commaPieces rest, ← spell_pieces first]
    simp [chars, Sign.char]

theorem spell_commaPieces : ∀ arguments : List WrittenType,
    spell (commaPieces arguments) = ((texts arguments).flatMap fun text => ", ".toList ++ text.toList)
  | [] => rfl
  | first :: rest => by
    simp [commaPieces, texts, chars, Sign.char, spell_pieces first, spell_commaPieces rest]

end

theorem commaPieces_eq (arguments : List WrittenType) :
    commaPieces arguments = afterCommas pieces arguments := by
  induction arguments with
  | nil => rfl
  | cons first rest ih => rw [commaPieces, ih]; rfl

def first : WrittenType → FreeName
  | named name _ _ => name.first

theorem pieces_named (name : DottedName) : (named name [] false).pieces = name.pieces := by
  simp [pieces, anglePieces, bracketPieces]

theorem pieces_eq_cons (type : WrittenType) :
    ∃ rest, type.pieces = .word type.first.toIdentifier :: rest := by
  obtain ⟨name, arguments, isArray⟩ := type
  exact ⟨_, by rw [pieces, DottedName.pieces, List.cons_append, List.cons_append, first]⟩

@[simp] theorem head?_lay_pieces (type : WrittenType) (place : Place) :
    (place.lay type.pieces).head? = some (place.word type.first.toIdentifier) := by
  obtain ⟨rest, begun⟩ := type.pieces_eq_cons
  rw [begun]
  rfl

theorem mayFollow_dotted (others : List FreeName) {rest : List Piece} (follows : mayFollow rest) :
    mayFollow (others.flatMap DottedName.dotted ++ rest) := by
  induction others with
  | nil => exact follows
  | cons other others ih => simpa [DottedName.dotted] using ih

theorem mayFollow_bracketPieces (isArray : Bool) {rest : List Piece} (follows : mayFollow rest) :
    mayFollow (bracketPieces isArray ++ rest) := by
  cases isArray with
  | false => exact follows
  | true => simpa [bracketPieces, areApart_sign] using areApart_of_mayFollow follows

def signs : List Sign :=
  [.dot, .openAngle, .comma, .closeAngle, .openBracket, .closeBracket]

mutual

theorem mem_signs {mark : Sign} : ∀ type : WrittenType, .sign mark ∈ type.pieces → mark ∈ signs
  | named name arguments isArray, member => by
    rw [pieces, List.append_assoc, List.mem_append, List.mem_append] at member
    rcases member with segments | angles | brackets
    · simp only [DottedName.pieces, DottedName.dotted, List.mem_cons, List.mem_flatMap, reduceCtorEq,
        Piece.sign.injEq, List.not_mem_nil, or_false, false_or] at segments
      obtain ⟨_, -, rfl⟩ := segments
      decide
    · exact mem_signs_anglePieces arguments angles
    · cases isArray <;> simp [bracketPieces] at brackets
      rcases brackets with rfl | rfl <;> decide

theorem mem_signs_anglePieces {mark : Sign} : ∀ arguments : List WrittenType,
    .sign mark ∈ anglePieces arguments → mark ∈ signs
  | [], member => by cases member
  | first :: arguments, member => by
    simp only [anglePieces, List.mem_cons, List.mem_append, Piece.sign.injEq, List.not_mem_nil,
      or_false] at member
    rcases member with rfl | head | more | rfl
    · decide
    · exact mem_signs first head
    · exact mem_signs_commaPieces arguments more
    · decide

theorem mem_signs_commaPieces {mark : Sign} : ∀ arguments : List WrittenType,
    .sign mark ∈ commaPieces arguments → mark ∈ signs
  | [], member => by cases member
  | first :: arguments, member => by
    simp only [commaPieces, List.mem_cons, List.mem_append, Piece.sign.injEq, reduceCtorEq,
      false_or] at member
    rcases member with rfl | head | more
    · decide
    · exact mem_signs first head
    · exact mem_signs_commaPieces arguments more

end

/-! No piece of a type runs into the next, or into what may follow a word. -/

mutual

theorem areApart_pieces : ∀ (type : WrittenType) {rest : List Piece}, mayFollow rest →
    areApart (type.pieces ++ rest)
  | named name arguments isArray, rest, follows => by
    rw [pieces, DottedName.pieces, List.append_assoc, List.append_assoc, List.cons_append, areApart_word]
    exact mayFollow_dotted name.others
      (mayFollow_anglePieces arguments (mayFollow_bracketPieces isArray follows))

theorem mayFollow_anglePieces : ∀ (arguments : List WrittenType) {rest : List Piece}, mayFollow rest →
    mayFollow (anglePieces arguments ++ rest)
  | [], _, follows => follows
  | first :: arguments, rest, follows => by
    have inner := areApart_pieces first (mayFollow_commaPieces arguments follows)
    obtain ⟨more, begun⟩ := first.pieces_eq_cons
    rw [begun] at inner
    simpa [anglePieces, begun] using inner

theorem mayFollow_commaPieces : ∀ (arguments : List WrittenType) {rest : List Piece}, mayFollow rest →
    mayFollow (commaPieces arguments ++ (.sign .closeAngle :: rest))
  | [], _, follows => by simpa [commaPieces, areApart_sign] using areApart_of_mayFollow follows
  | first :: arguments, rest, follows => by
    have inner := areApart_pieces first (mayFollow_commaPieces arguments follows)
    obtain ⟨more, begun⟩ := first.pieces_eq_cons
    rw [begun] at inner
    simpa [commaPieces, areApart_sign, begun] using inner

end

open TypeText

theorem isPlain_name (name : DottedName) : ∀ c ∈ spell name.pieces, isPlainCharacter c := by
  intro c member
  simp only [DottedName.pieces, DottedName.dotted, spell, List.flatMap_cons, List.mem_append,
    List.mem_flatMap, List.mem_cons, List.not_mem_nil, or_false] at member
  obtain first | ⟨_, ⟨other, -, rfl | rfl⟩, inside⟩ := member
  · exact name.first.isPlain_text c first
  · rw [chars, List.mem_singleton] at inside
    exact inside ▸ rfl
  · exact other.isPlain_text c inside

theorem isPlain_bracketPieces (isArray : Bool) :
    ∀ c ∈ spell (bracketPieces isArray), isPlainCharacter c := by
  have all : (spell (bracketPieces isArray)).all isPlainCharacter := by cases isArray <;> rfl
  exact List.all_eq_true.mp all

mutual

theorem eraseFrom_pieces (depth : Nat) : ∀ (type : WrittenType) (rest : List Char),
    eraseFrom (depth + 1) (spell type.pieces ++ rest) = eraseFrom (depth + 1) rest
  | named name arguments isArray, rest => by
    rw [pieces, spell_append, spell_append, List.append_assoc, List.append_assoc,
      eraseFrom_plain_append (isPlain_name name), eraseFrom_anglePieces (depth + 1) arguments,
      eraseFrom_plain_append (isPlain_bracketPieces isArray)]
    rfl

theorem eraseFrom_anglePieces (depth : Nat) : ∀ (arguments : List WrittenType) (rest : List Char),
    eraseFrom depth (spell (anglePieces arguments) ++ rest) = eraseFrom depth rest
  | [], _ => rfl
  | first :: arguments, rest => by
    simp only [anglePieces, spell_cons, spell_append, chars, Sign.char, List.append_assoc,
      List.cons_append, List.nil_append, spell_nil]
    rw [eraseFrom_open, eraseFrom_pieces depth first, eraseFrom_commaPieces depth arguments,
      eraseFrom_close]

theorem eraseFrom_commaPieces (depth : Nat) : ∀ (arguments : List WrittenType) (rest : List Char),
    eraseFrom (depth + 1) (spell (commaPieces arguments) ++ rest) = eraseFrom (depth + 1) rest
  | [], _ => rfl
  | first :: arguments, rest => by
    simp only [commaPieces, spell_cons, spell_append, chars, Sign.char, List.append_assoc,
      List.cons_append, List.nil_append]
    rw [eraseFrom_inner (by decide), eraseFrom_inner (by decide), eraseFrom_pieces depth first,
      eraseFrom_commaPieces depth arguments]

end

theorem erase_text (type : WrittenType) : erase type.text = type.erased := by
  obtain ⟨name, arguments, isArray⟩ := type
  have brackets := eraseFrom_of_plain (isPlain_bracketPieces isArray)
  rw [erase, ← spell_pieces, pieces, spell_append, spell_append, List.append_assoc,
    eraseFrom_plain_append (isPlain_name name), if_pos rfl, eraseFrom_anglePieces, brackets, erased,
    name.spell_pieces, String.ofList_append, String.ofList_toList]
  cases isArray <;> rfl

end WrittenType

end CallContext.Java
