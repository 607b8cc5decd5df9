import CallContext.Java.CallSite
import CallContext.Proofs.Java.Written.Type

/-!
Calls as they are written, nested to any depth: in the objects they are made on and in their arguments.
The calls of an expression are listed with the call itself last, after those of its object and those of
its arguments.
-/

namespace CallContext.Java

namespace Identifier

def super : Identifier := ⟨"super", by decide⟩

def new : Identifier := ⟨"new", by decide⟩

end Identifier

/-- What calls are made on and what their arguments are. Calls and fields may have the word `super`
before the dot, which is nothing by itself. -/
inductive Operand where
  | this
  | name (id : FreeName)
  | creation (type : DottedName) (arguments : List WrittenType)
  | cast (type : WrittenType) (value : FreeName)
  | parenthesized (inner : Operand)
  | field (object : Operand) (id : FreeName)
  | superField (id : FreeName)
  | call (object : Operand) (id : FreeName) (arguments : List Operand)
  | superCall (id : FreeName) (arguments : List Operand)
  | ownCall (id : FreeName) (arguments : List Operand)

namespace Operand

def isCall : Operand → Bool
  | call .. | superCall .. | ownCall .. => true
  | _ => false

def inParentheses (texts : List String) : String :=
  "(" ++ Text.joinWith ", " texts ++ ")"

mutual

def text : Operand → String
  | this => "this"
  | name id => id.text
  | creation type arguments => "new " ++ (WrittenType.named type arguments false).text ++ "()"
  | cast type value => "((" ++ type.text ++ ") " ++ value.text ++ ")"
  | parenthesized inner => "(" ++ inner.text ++ ")"
  | field object id => object.text ++ "." ++ id.text
  | superField id => "super." ++ id.text
  | call object id arguments => object.text ++ "." ++ id.text ++ inParentheses (texts arguments)
  | superCall id arguments => "super." ++ id.text ++ inParentheses (texts arguments)
  | ownCall id arguments => id.text ++ inParentheses (texts arguments)

def texts : List Operand → List String
  | [] => []
  | first :: rest => first.text :: texts rest

end

def receiver (line : Nat) : Operand → Receiver
  | this => .this
  | name id => .name id.text
  | creation type arguments => .creation (WrittenType.named type arguments false).erased
  | cast type _ => .cast type.erased
  | parenthesized inner => inner.receiver line
  | field object id => .field (object.receiver line) id.text
  | superField id => .field .super id.text
  | call object id arguments => .call (object.receiver line) id.text arguments.length line
  | superCall id arguments => .call .super id.text arguments.length line
  | ownCall id arguments => .call .implicit id.text arguments.length line

mutual

def calls (line : Nat) : Operand → List CallSite
  | call object id arguments =>
    object.calls line ++ callsIn line arguments ++
      [⟨object.receiver line, id.text, arguments.length, line⟩]
  | superCall id arguments => callsIn line arguments ++ [⟨.super, id.text, arguments.length, line⟩]
  | ownCall id arguments => callsIn line arguments ++ [⟨.implicit, id.text, arguments.length, line⟩]
  | parenthesized inner => inner.calls line
  | field object _ => object.calls line
  | this | name _ | creation .. | cast .. | superField _ => []

def callsIn (line : Nat) : List Operand → List CallSite
  | [] => []
  | first :: rest => first.calls line ++ callsIn line rest

end

mutual

def code (line : Nat) : Operand → Code
  | this => .this
  | name id => .name id.toIdentifier
  | creation type arguments => .creation (WrittenType.named type arguments false).text []
  | cast type value => .parenthesized (.cast type.text [.name value.toIdentifier])
  | parenthesized inner => .parenthesized (inner.code line)
  | field object id => .field (object.code line) id.toIdentifier
  | superField id => .field .super id.toIdentifier
  | call object id arguments => .call (object.code line) [] id.text (codes line arguments) line
  | superCall id arguments => .call .super [] id.text (codes line arguments) line
  | ownCall id arguments => .call .implicit [] id.text (codes line arguments) line

def codes (line : Nat) : List Operand → List Code
  | [] => []
  | first :: rest => first.code line :: codes line rest

end

theorem codes_eq_map (line : Nat) (operands : List Operand) :
    codes line operands = operands.map (code line) := by
  induction operands with
  | nil => rfl
  | cons first rest ih => rw [codes, ih, List.map_cons]

theorem ofCode_code (line : Nat) : ∀ operand : Operand,
    Receiver.ofCode (operand.code line) = operand.receiver line
  | this => rfl
  | name _ => rfl
  | creation type arguments => by rw [code, Receiver.ofCode, WrittenType.erase_text, receiver]
  | cast type value => by rw [code, Receiver.ofCode, Receiver.ofCode, WrittenType.erase_text, receiver]
  | parenthesized inner => by rw [code, Receiver.ofCode, ofCode_code line inner, receiver]
  | field object id => by rw [code, Receiver.ofCode, ofCode_code line object, receiver]
  | superField _ => rfl
  | call object id arguments => by
    rw [code, Receiver.ofCode, ofCode_code line object, codes_eq_map, List.length_map, receiver]
  | superCall id arguments => by
    rw [code, Receiver.ofCode, codes_eq_map, List.length_map, receiver, Receiver.ofCode]
  | ownCall id arguments => by
    rw [code, Receiver.ofCode, codes_eq_map, List.length_map, receiver, Receiver.ofCode]

mutual

theorem events_code (line : Nat) : ∀ operand : Operand,
    (operand.code line).events = (operand.calls line).map Event.call
  | this => rfl
  | name _ => rfl
  | creation .. => rfl
  | cast .. => rfl
  | parenthesized inner => by rw [code, Code.events, events_code line inner, calls]
  | field object id => by rw [code, Code.events, events_code line object, calls]
  | superField _ => rfl
  | call object id arguments => by
    rw [code, Code.events, events_code line object, eventsOf_codes line arguments, ofCode_code,
      codes_eq_map, List.length_map, calls]
    simp [Code.eventsOf]
  | superCall id arguments => by
    rw [code, Code.events, eventsOf_codes line arguments, codes_eq_map, List.length_map, calls]
    simp [Code.eventsOf, Code.events, Receiver.ofCode]
  | ownCall id arguments => by
    rw [code, Code.events, eventsOf_codes line arguments, codes_eq_map, List.length_map, calls]
    simp [Code.eventsOf, Code.events, Receiver.ofCode]

theorem eventsOf_codes (line : Nat) : ∀ operands : List Operand,
    Code.eventsOf (codes line operands) = (callsIn line operands).map Event.call
  | [] => rfl
  | first :: rest => by
    rw [codes, Code.eventsOf, events_code line first, eventsOf_codes line rest, callsIn, List.map_append]

end

mutual

def pieces : Operand → List Piece
  | this => [.word .this]
  | name id => [.word id.toIdentifier]
  | creation type arguments =>
    .word .new :: .space :: ((WrittenType.named type arguments false).pieces ++
      [.sign .openParenthesis, .sign .closeParenthesis])
  | cast type value =>
    .sign .openParenthesis :: .sign .openParenthesis :: (type.pieces ++
      [.sign .closeParenthesis, .space, .word value.toIdentifier, .sign .closeParenthesis])
  | parenthesized inner => .sign .openParenthesis :: (inner.pieces ++ [.sign .closeParenthesis])
  | field object id => object.pieces ++ DottedName.dotted id
  | superField id => .word .super :: DottedName.dotted id
  | call object id arguments => object.pieces ++ (DottedName.dotted id ++ argumentPieces arguments)
  | superCall id arguments => .word .super :: (DottedName.dotted id ++ argumentPieces arguments)
  | ownCall id arguments => .word id.toIdentifier :: argumentPieces arguments

def argumentPieces : List Operand → List Piece
  | [] => [.sign .openParenthesis, .sign .closeParenthesis]
  | first :: rest =>
    .sign .openParenthesis :: (first.pieces ++ (commaPieces rest ++ [.sign .closeParenthesis]))

def commaPieces : List Operand → List Piece
  | [] => []
  | first :: rest => .sign .comma :: .space :: (first.pieces ++ commaPieces rest)

end

open Piece

theorem commaPieces_eq (operands : List Operand) :
    commaPieces operands = afterCommas pieces operands := by
  induction operands with
  | nil => rfl
  | cons first rest ih => rw [commaPieces, ih]; rfl

theorem spell_dotted (id : FreeName) : spell (DottedName.dotted id) = '.' :: id.text.toList := by
  simp [DottedName.dotted, chars, Sign.char]

mutual

theorem spell_pieces : ∀ operand : Operand, spell operand.pieces = operand.text.toList
  | this => rfl
  | name id => by simp [pieces, text, chars]
  | creation type arguments => by
    simp [pieces, text, chars, Sign.char, WrittenType.spell_pieces, Identifier.new]
  | cast type value => by simp [pieces, text, chars, Sign.char, WrittenType.spell_pieces]
  | parenthesized inner => by simp [pieces, text, chars, Sign.char, spell_pieces inner]
  | field object id => by simp [pieces, text, spell_pieces object, spell_dotted]
  | superField id => by simp [pieces, text, chars, spell_dotted, Identifier.super]
  | call object id arguments => by
    simp [pieces, text, spell_pieces object, spell_argumentPieces arguments, spell_dotted]
  | superCall id arguments => by
    simp [pieces, text, chars, spell_argumentPieces arguments, spell_dotted, Identifier.super]
  | ownCall id arguments => by simp [pieces, text, chars, spell_argumentPieces arguments]

theorem spell_argumentPieces : ∀ arguments : List Operand,
    spell (argumentPieces arguments) = (inParentheses (texts arguments)).toList
  | [] => rfl
  | first :: rest => by
    simp [argumentPieces, texts, inParentheses, Text.toList_joinWith_cons, chars, Sign.char,
      spell_pieces first, spell_commaPieces rest]

theorem spell_commaPieces : ∀ arguments : List Operand,
    spell (commaPieces arguments) = (texts arguments).flatMap fun text => ", ".toList ++ text.toList
  | [] => rfl
  | first :: rest => by
    simp [commaPieces, texts, chars, Sign.char, spell_pieces first, spell_commaPieces rest]

end

/-- What an operand begins with: a word of the language, a parenthesis, or a dotted name. Only a
parenthesis can follow a dotted name, and one does follow it in a call. -/
inductive Begins : Bool → List Piece → Prop where
  | keyword {isCall : Bool} {id : Identifier} {more : List Piece}
      (listed : id.text ∈ ["this", "new", "super"]) : Begins isCall (.word id :: more)
  | parenthesis {isCall : Bool} {more : List Piece} : Begins isCall (.sign .openParenthesis :: more)
  | named (name : DottedName) : Begins false name.pieces
  | called {isCall : Bool} (name : DottedName) (more : List Piece) :
      Begins isCall (name.pieces ++ .sign .openParenthesis :: more)

theorem Begins.weight_pos {isCall : Bool} {pieces : List Piece} (begins : Begins isCall pieces) :
    0 < weight pieces := by
  cases begins <;> exact Nat.succ_pos _

theorem Begins.dotted {isCall : Bool} {pieces : List Piece} (begins : Begins isCall pieces)
    (id : FreeName) : Begins false (pieces ++ DottedName.dotted id) := by
  cases begins with
  | keyword listed => exact .keyword listed
  | parenthesis => exact .parenthesis
  | named name =>
      have longer : name.pieces ++ DottedName.dotted id =
          (DottedName.mk name.first (name.others ++ [id])).pieces := by
        simp [DottedName.pieces]
      exact longer ▸ .named _
  | called name more =>
      rw [List.append_assoc]
      exact .called name _

theorem Begins.append {pieces tail : List Piece} (begins : Begins false pieces)
    (opened : tail.head? = some (.sign .openParenthesis)) : Begins true (pieces ++ tail) := by
  obtain ⟨more, rfl⟩ := List.head?_eq_some_iff.mp opened
  cases begins with
  | keyword listed => exact .keyword listed
  | parenthesis => exact .parenthesis
  | named name => exact .called name more
  | called name more =>
      rw [List.append_assoc]
      exact .called name _

theorem Begins.append_right {pieces : List Piece} (begins : Begins true pieces) (more : List Piece) :
    Begins true (pieces ++ more) := by
  cases begins with
  | keyword listed => exact .keyword listed
  | parenthesis => exact .parenthesis
  | called name inner =>
      rw [List.append_assoc]
      exact .called name _

theorem head?_argumentPieces (arguments : List Operand) :
    (argumentPieces arguments).head? = some (.sign .openParenthesis) := by
  cases arguments <;> rfl

theorem begins_pieces : ∀ operand : Operand, Begins operand.isCall operand.pieces
  | this => .keyword (by decide)
  | name id => .named ⟨id, []⟩
  | creation .. => .keyword (by decide)
  | cast .. => .parenthesis
  | parenthesized _ => .parenthesis
  | superField _ => .keyword (by decide)
  | superCall .. => .keyword (by decide)
  | ownCall id arguments =>
    (Begins.named ⟨id, []⟩).append (head?_argumentPieces arguments)
  | field object id => (begins_pieces object).dotted id
  | call object id arguments => by
    rw [pieces, ← List.append_assoc]
    exact ((begins_pieces object).dotted id).append (head?_argumentPieces arguments)

@[simp] theorem head?_lay_argumentPieces (arguments : List Operand) (place : Place) :
    (place.lay (argumentPieces arguments)).head? = some (place.sign .openParenthesis) := by
  cases arguments <;> rfl

theorem not_isSymbol_pieces (operand : Operand) {sign : String} (other : "(" ≠ sign) (place : Place)
    (rest : List Token) :
    (place.lay operand.pieces ++ rest).head?.any (·.isSymbol sign) = false := by
  have begins := operand.begins_pieces
  generalize operand.isCall = isCall, operand.pieces = pieces at begins ⊢
  cases begins with
  | keyword listed => rfl
  | parenthesis => exact beq_false_of_ne other
  | named name => rfl
  | called name more => rfl

theorem areApart_closed {rest : List Piece} (follows : mayFollow rest) :
    areApart (.sign .closeParenthesis :: rest) := by
  rw [areApart_sign (by decide)]
  exact areApart_of_mayFollow follows

theorem areApart_openParenthesis {rest : List Piece} :
    areApart (.sign .openParenthesis :: rest) = areApart rest :=
  areApart_sign (by decide) rest

theorem areApart_comma_pieces (operand : Operand) (rest : List Piece) :
    areApart (.sign .comma :: .space :: (operand.pieces ++ rest)) = areApart (operand.pieces ++ rest) := by
  rw [areApart_sign (by decide)]
  have begins := operand.begins_pieces
  generalize operand.isCall = isCall, operand.pieces = pieces at begins ⊢
  cases begins with
  | keyword listed => rfl
  | parenthesis => rfl
  | named name => rfl
  | called name more => rfl

/-! No piece of an operand runs into the next, or into what may follow a word. -/

mutual

theorem areApart_pieces : ∀ (operand : Operand) {rest : List Piece}, mayFollow rest →
    areApart (operand.pieces ++ rest)
  | this, _, follows => by simpa [pieces] using follows
  | name id, _, follows => by simpa [pieces] using follows
  | creation type arguments, rest, follows => by
    have inner : areApart ((WrittenType.named type arguments false).pieces ++
        .sign .openParenthesis :: .sign .closeParenthesis :: rest) :=
      WrittenType.areApart_pieces _ (by simpa [areApart_openParenthesis] using areApart_closed follows)
    obtain ⟨more, begun⟩ := (WrittenType.named type arguments false).pieces_eq_cons
    rw [begun] at inner
    simpa [pieces, begun] using inner
  | cast type value, rest, follows => by
    have inner : areApart (type.pieces ++ .sign .closeParenthesis :: .space ::
        .word value.toIdentifier :: .sign .closeParenthesis :: rest) :=
      WrittenType.areApart_pieces type (by simpa [areApart_sign] using areApart_closed follows)
    simpa [pieces, areApart_openParenthesis] using inner
  | parenthesized inner, rest, follows => by
    simpa [pieces, areApart_openParenthesis] using
      areApart_pieces inner (by simpa using areApart_closed follows)
  | field object id, rest, follows => by
    rw [pieces, List.append_assoc]
    exact areApart_pieces object (by simpa [DottedName.dotted] using follows)
  | superField id, rest, follows => by simpa [pieces, DottedName.dotted] using follows
  | call object id arguments, rest, follows => by
    rw [pieces, List.append_assoc]
    refine areApart_pieces object ?_
    simpa [DottedName.dotted] using mayFollow_argumentPieces arguments follows
  | superCall id arguments, rest, follows => by
    simpa [pieces, DottedName.dotted] using mayFollow_argumentPieces arguments follows
  | ownCall id arguments, rest, follows => by
    simpa [pieces] using mayFollow_argumentPieces arguments follows

theorem mayFollow_argumentPieces : ∀ (arguments : List Operand) {rest : List Piece}, mayFollow rest →
    mayFollow (argumentPieces arguments ++ rest)
  | [], _, follows => by simpa [argumentPieces, areApart_openParenthesis] using areApart_closed follows
  | first :: arguments, rest, follows => by
    simpa [argumentPieces, areApart_openParenthesis] using
      areApart_pieces first (mayFollow_commaPieces arguments follows)

theorem mayFollow_commaPieces : ∀ (arguments : List Operand) {rest : List Piece}, mayFollow rest →
    mayFollow (commaPieces arguments ++ (.sign .closeParenthesis :: rest))
  | [], _, follows => by simpa [commaPieces] using areApart_closed follows
  | first :: arguments, rest, follows => by
    have inner := areApart_pieces first (mayFollow_commaPieces arguments follows)
    simpa [commaPieces, areApart_comma_pieces] using inner

end

end Operand

end CallContext.Java
