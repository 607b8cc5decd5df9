import CallContext.Java.Lexer
import CallContext.Proofs.Java.TypeText
import CallContext.Proofs.Text.Words

/-!
Source that is put together from words and signs. A line is a list of pieces, and every piece that is
not a space becomes one token; the scanner is followed by a place, which knows what has been read so
far. As long as no two neighbours run together, scanning the text of some lines lays out their pieces.
-/

namespace CallContext.Java

open Lexer

inductive Sign where
  | openParenthesis
  | closeParenthesis
  | openBrace
  | closeBrace
  | openBracket
  | closeBracket
  | openAngle
  | closeAngle
  | semicolon
  | comma
  | dot
  | star
  deriving DecidableEq, Repr

namespace Sign

def char : Sign → Char
  | openParenthesis => '('
  | closeParenthesis => ')'
  | openBrace => '\x7b'
  | closeBrace => '\x7d'
  | openBracket => '['
  | closeBracket => ']'
  | openAngle => '<'
  | closeAngle => '>'
  | semicolon => ';'
  | comma => ','
  | dot => '.'
  | star => '*'

def text : Sign → String
  | openParenthesis => "("
  | closeParenthesis => ")"
  | openBrace => "\x7b"
  | closeBrace => "\x7d"
  | openBracket => "["
  | closeBracket => "]"
  | openAngle => "<"
  | closeAngle => ">"
  | semicolon => ";"
  | comma => ","
  | dot => "."
  | star => "*"

@[simp] theorem text_eq :
    text .openParenthesis = "(" ∧ text .closeParenthesis = ")" ∧ text .openBrace = "\x7b" ∧
      text .closeBrace = "\x7d" ∧ text .openBracket = "[" ∧ text .closeBracket = "]" ∧
      text .openAngle = "<" ∧ text .closeAngle = ">" ∧ text .semicolon = ";" ∧ text .comma = "," ∧
      text .dot = "." ∧ text .star = "*" := by
  decide

theorem singleton_char (mark : Sign) : String.singleton mark.char = mark.text := by
  cases mark <;> decide

end Sign

theorem not_isDigit_of_isIdentifierStart {c : Char} (start : Text.isIdentifierStart c) :
    c.isDigit = false := by
  by_contra digit
  have bounds : 48 ≤ c.toNat ∧ c.toNat ≤ 57 := by
    simpa [Char.isDigit, UInt32.le_iff_toNat_le] using digit
  have each : ∀ n < 58, 48 ≤ n → Text.isIdentifierStart (Char.ofNat n) = false := by decide
  have other := each c.toNat (by omega) bounds.1
  rw [Char.ofNat_toNat, start] at other
  cases other

namespace Identifier

variable (id : Identifier)

theorem exists_letters : ∃ first letters, id.text.toList = first :: letters ∧
    Text.isIdentifierStart first ∧ ∀ c ∈ letters, Text.isIdentifierPart c := by
  have proper := id.proper
  rw [isIdentifier] at proper
  split at proper
  · cases proper
  · rename_i first letters spelled
    obtain ⟨start, parts⟩ := (Bool.and_eq_true _ _).mp proper
    exact ⟨first, letters, spelled, start, List.all_eq_true.mp parts⟩

theorem ne_of_mem {c sign : Char} (member : c ∈ id.text.toList)
    (other : (Text.isIdentifierStart sign || Text.isIdentifierPart sign) = false) : c ≠ sign := by
  rintro rfl
  obtain ⟨first, letters, spelled, start, parts⟩ := id.exists_letters
  rw [spelled] at member
  rcases List.mem_cons.mp member with rfl | later
  · rw [start, Bool.true_or] at other
    cases other
  · rw [parts _ later, Bool.or_true] at other
    cases other

theorem not_isBlank_of_mem {c : Char} (member : c ∈ id.text.toList) : Text.isBlank c = false := by
  have plain := (plain_of_mem_isIdentifier id.proper member).1
  simp only [TypeText.isPlainCharacter, Bool.and_eq_true, Bool.not_eq_true'] at plain
  exact plain.1.1

end Identifier

inductive Piece where
  | word (id : Identifier)
  | sign (mark : Sign)
  | space
  deriving DecidableEq, Repr

namespace Piece

def chars : Piece → List Char
  | word id => id.text.toList
  | sign mark => [mark.char]
  | space => [' ']

def mayPrecede : Piece → Option Piece → Bool
  | word _, some (word _) => false
  | sign .dot, some (sign .dot) => false
  | sign .openAngle, some (sign .openAngle) => false
  | space, none => false
  | space, some space => false
  | _, _ => true

def areApart : List Piece → Bool
  | [] => true
  | piece :: rest => piece.mayPrecede rest.head? && areApart rest

def mayFollow (pieces : List Piece) : Bool :=
  match pieces with
  | word _ :: _ => false
  | _ => areApart pieces

@[simp]
def weight : List Piece → Nat
  | [] => 0
  | space :: rest => weight rest
  | word _ :: rest => weight rest + 1
  | sign _ :: rest => weight rest + 1

def spell (pieces : List Piece) : List Char :=
  pieces.flatMap chars

def spellLines (lines : List (List Piece)) : List Char :=
  lines.flatMap fun line => spell line ++ ['\n']

def weightLines (lines : List (List Piece)) : Nat :=
  weight lines.flatten

@[simp] theorem weight_append (pieces more : List Piece) :
    weight (pieces ++ more) = weight pieces + weight more := by
  fun_induction weight pieces with
  | case1 => simp
  | case2 rest ih => rw [List.cons_append, weight, ih]
  | case3 id rest ih => rw [List.cons_append, weight, ih]; omega
  | case4 mark rest ih => rw [List.cons_append, weight, ih]; omega

variable {ι : Type}

theorem weight_le_flatMap (pieces : ι → List Piece) {item : ι} {items : List ι} (member : item ∈ items) :
    weight (pieces item) ≤ weight (items.flatMap pieces) := by
  induction items with
  | nil => cases member
  | cons other items ih =>
      rw [List.flatMap_cons, weight_append]
      rcases List.mem_cons.mp member with rfl | later
      · exact Nat.le_add_right _ _
      · exact Nat.le_add_left_of_le (ih later)

theorem length_le_flatMap (pieces : ι → List Piece) {items : List ι}
    (solid : ∀ item ∈ items, 0 < weight (pieces item)) :
    items.length ≤ weight (items.flatMap pieces) := by
  induction items with
  | nil => exact Nat.zero_le _
  | cons item items ih =>
      have first := solid item List.mem_cons_self
      have others := ih fun other member => solid other (List.mem_cons_of_mem _ member)
      rw [List.flatMap_cons, weight_append, List.length_cons]
      omega

def afterComma (pieces : ι → List Piece) (item : ι) : List Piece :=
  .sign .comma :: .space :: pieces item

def afterCommas (pieces : ι → List Piece) (items : List ι) : List Piece :=
  items.flatMap (afterComma pieces)

theorem length_le_afterCommas (pieces : ι → List Piece) (items : List ι) :
    items.length ≤ weight (afterCommas pieces items) :=
  length_le_flatMap _ fun _ _ => Nat.succ_pos _

theorem weight_lt_afterCommas (pieces : ι → List Piece) {item : ι} {items : List ι}
    (member : item ∈ items) : weight (pieces item) < weight (afterCommas pieces items) :=
  weight_le_flatMap (afterComma pieces) member

@[simp] theorem weightLines_nil : weightLines [] = 0 := rfl

@[simp] theorem weightLines_cons (line : List Piece) (rest : List (List Piece)) :
    weightLines (line :: rest) = weight line + weightLines rest :=
  weight_append line rest.flatten

@[simp] theorem weightLines_append (lines more : List (List Piece)) :
    weightLines (lines ++ more) = weightLines lines + weightLines more := by
  rw [weightLines, List.flatten_append, weight_append, weightLines, weightLines]

theorem weightLines_flatMap (lines : ι → List (List Piece)) (items : List ι) :
    weightLines (items.flatMap lines) = weight (items.flatMap fun item => (lines item).flatten) := by
  rw [weightLines, List.flatMap_def, List.flatten_flatten, List.map_map]
  rfl

theorem weightLines_le_flatMap (lines : ι → List (List Piece)) {item : ι} {items : List ι}
    (member : item ∈ items) : weightLines (lines item) ≤ weightLines (items.flatMap lines) := by
  rw [weightLines_flatMap]
  exact weight_le_flatMap (fun item => (lines item).flatten) member

theorem length_le_weightLines (lines : ι → List (List Piece)) {items : List ι}
    (solid : ∀ item ∈ items, 0 < weightLines (lines item)) :
    items.length ≤ weightLines (items.flatMap lines) := by
  rw [weightLines_flatMap]
  exact length_le_flatMap _ solid

@[simp] theorem areApart_word (id : Identifier) (rest : List Piece) :
    areApart (word id :: rest) = mayFollow rest := by
  match rest with
  | [] | space :: _ | sign _ :: _ | word _ :: _ => rfl

@[simp] theorem areApart_space_word (id : Identifier) (rest : List Piece) :
    areApart (space :: word id :: rest) = areApart (word id :: rest) := rfl

@[simp] theorem areApart_space_sign (mark : Sign) (rest : List Piece) :
    areApart (space :: sign mark :: rest) = areApart (sign mark :: rest) := rfl

@[simp] theorem areApart_sign_word (mark : Sign) (id : Identifier) (rest : List Piece) :
    areApart (sign mark :: word id :: rest) = areApart (word id :: rest) := by
  cases mark <;> rfl

theorem areApart_sign {mark : Sign} (whole : mark ≠ .dot ∧ mark ≠ .openAngle) (rest : List Piece) :
    areApart (sign mark :: rest) = areApart rest := by
  cases mark <;> first | rfl | simp at whole

@[simp] theorem mayFollow_nil : mayFollow [] = true := rfl

@[simp] theorem mayFollow_sign (mark : Sign) (rest : List Piece) :
    mayFollow (sign mark :: rest) = areApart (sign mark :: rest) := rfl

@[simp] theorem mayFollow_space (rest : List Piece) :
    mayFollow (space :: rest) = areApart (space :: rest) := rfl

theorem areApart_of_mayFollow {pieces : List Piece} (follows : mayFollow pieces) :
    areApart pieces := by
  match pieces with
  | [] | space :: _ | sign _ :: _ => exact follows

@[simp] theorem spell_nil : spell [] = [] := rfl

@[simp] theorem spell_cons (piece : Piece) (rest : List Piece) :
    spell (piece :: rest) = piece.chars ++ spell rest := rfl

@[simp] theorem spell_append (pieces more : List Piece) :
    spell (pieces ++ more) = spell pieces ++ spell more :=
  List.flatMap_append

theorem spell_afterCommas (pieces : ι → List Piece) (items : List ι) :
    spell (afterCommas pieces items) = items.flatMap fun item => ", ".toList ++ spell (pieces item) := by
  rw [afterCommas, spell, List.flatMap_assoc]
  rfl

end Piece

/-- A place that the scanner has reached: the number of tokens before it, the line on which the last of
them ended, and the blanks since then. -/
structure Place where
  index : Nat
  start : Nat
  lead : List Char
  blank : ∀ c ∈ lead, Text.isBlank c

namespace Place

variable (place : Place)

def beginning : Place := ⟨0, 1, [], by simp⟩

def line : Nat :=
  place.start + lineFeeds place.lead

def past (c : Char) (blank : Text.isBlank c) : Place :=
  { place with
    lead := place.lead ++ [c]
    blank := by
      intro d member
      rcases List.mem_append.mp member with before | last
      · exact place.blank d before
      · exact List.mem_singleton.mp last ▸ blank }

def next : Place := ⟨place.index + 1, place.line, [], by simp⟩

def space : Place := place.past ' ' (by decide)

def newline : Place := place.past '\n' (by decide)

def word (id : Identifier) : Token :=
  { kind := .word, text := id.text, gap := String.ofList place.lead, index := place.index,
    line := place.line, lastLine := place.line, proper := fun _ => id.proper }

def sign (mark : Sign) : Token :=
  { kind := .symbol, text := mark.text, gap := String.ofList place.lead, index := place.index,
    line := place.line, lastLine := place.line, proper := nofun }

@[simp]
def lay : Place → List Piece → List Token
  | _, [] => []
  | place, .space :: rest => place.space.lay rest
  | place, .word id :: rest => place.word id :: place.next.lay rest
  | place, .sign mark :: rest => place.sign mark :: place.next.lay rest

@[simp]
def after : Place → List Piece → Place
  | place, [] => place
  | place, .space :: rest => place.space.after rest
  | place, .word _ :: rest => place.next.after rest
  | place, .sign _ :: rest => place.next.after rest

def layLines : Place → List (List Piece) → List Token
  | _, [] => []
  | place, pieces :: rest => place.lay pieces ++ (place.after pieces).newline.layLines rest

@[simp] theorem layLines_singleton (pieces : List Piece) : place.layLines [pieces] = place.lay pieces :=
  List.append_nil _

def afterLines : Place → List (List Piece) → Place
  | place, [] => place
  | place, pieces :: rest => (place.after pieces).newline.afterLines rest

@[simp] theorem next_line : place.next.line = place.line := by
  simp [next, line, lineFeeds]

@[simp] theorem space_line : place.space.line = place.line := by
  simp [space, past, line, lineFeeds]

theorem newline_line : place.newline.line = place.line + 1 := by
  simp [newline, past, line, lineFeeds]
  omega

@[simp] theorem after_line (pieces : List Piece) : (place.after pieces).line = place.line := by
  fun_induction after place pieces <;> simp [*]

theorem afterLines_line (lines : List (List Piece)) :
    (place.afterLines lines).line = place.line + lines.length := by
  induction lines generalizing place with
  | nil => rfl
  | cons pieces rest ih =>
      rw [afterLines, ih, newline_line, after_line, List.length_cons]
      omega

@[simp] theorem lay_append (pieces more : List Piece) :
    place.lay (pieces ++ more) = place.lay pieces ++ (place.after pieces).lay more := by
  fun_induction lay place pieces <;> simp [lay, after, *]

@[simp] theorem after_append (pieces more : List Piece) :
    place.after (pieces ++ more) = (place.after pieces).after more := by
  fun_induction after place pieces <;> simp [after, *]

theorem layLines_append (lines more : List (List Piece)) :
    place.layLines (lines ++ more) = place.layLines lines ++ (place.afterLines lines).layLines more := by
  induction lines generalizing place with
  | nil => rfl
  | cons pieces rest ih => rw [List.cons_append, layLines, layLines, ih, afterLines, List.append_assoc]

theorem afterLines_append (lines more : List (List Piece)) :
    place.afterLines (lines ++ more) = (place.afterLines lines).afterLines more := by
  induction lines generalizing place with
  | nil => rfl
  | cons pieces rest ih => rw [List.cons_append, afterLines, ih, afterLines]

theorem layLines_block (heading : List Piece) (lines : List (List Piece)) :
    ∃ inner last, inner.line = place.line + 1 ∧
      place.layLines ((heading ++ [.sign .openBrace]) :: (lines ++ [[.sign .closeBrace]])) =
        place.lay heading ++ (place.after heading).sign .openBrace ::
          (layLines inner lines ++ [sign last .closeBrace]) := by
  let inner := (place.after heading).next.newline
  refine ⟨inner, inner.afterLines lines, ?_, ?_⟩
  · rw [newline_line, next_line, after_line]
  · rw [layLines, layLines_append, layLines_singleton, lay_append, List.append_assoc, after_append]
    rfl

theorem length_lay (pieces : List Piece) : (place.lay pieces).length = Piece.weight pieces := by
  fun_induction lay place pieces <;> simp [Piece.weight, *]

theorem length_layLines (lines : List (List Piece)) :
    (place.layLines lines).length = Piece.weightLines lines := by
  induction lines generalizing place with
  | nil => rfl
  | cons pieces rest ih =>
      rw [layLines, List.length_append, length_lay, ih, Piece.weightLines_cons]

/-! ## Scanning -/

def scan (text : List Char) : List Token :=
  Lexer.scan [] place.index place.start (place.lead ++ text)

theorem scan_space (text : List Char) : place.scan (' ' :: text) = place.space.scan text := by
  rw [scan, scan, space, past, List.append_assoc, List.singleton_append]

theorem scan_newline (text : List Char) : place.scan ('\n' :: text) = place.newline.scan text := by
  rw [scan, scan, newline, past, List.append_assoc, List.singleton_append]

end Place

namespace Lexer

theorem gapLength_blank {lead text : List Char} (blank : ∀ c ∈ lead, Text.isBlank c)
    (solid : gapLength text = 0) : gapLength (lead ++ text) = lead.length := by
  induction lead with
  | nil => exact solid
  | cons c lead ih =>
      rw [List.cons_append, gapLength, if_pos (blank c List.mem_cons_self),
        ih fun d member => blank d (List.mem_cons_of_mem c member), List.length_cons]

theorem gapLength_solid {c : Char} {rest : List Char} (solid : Text.isBlank c = false)
    (slash : c ≠ '/') : gapLength (c :: rest) = 0 := by
  have none : commentLength (c :: rest) = 0 := by
    unfold commentLength
    split <;> simp_all
  rw [gapLength, if_neg (by simp [solid]), none]

theorem scan_token {frames : List Frame} {index line : Nat} {lead rest : List Char} {c : Char}
    (gap : gapBefore frames (lead ++ c :: rest) = lead.length) :
    scan frames index line (lead ++ c :: rest) =
      { kind := (lexeme frames c rest).kind
        text := String.ofList (c :: rest.take (lexeme frames c rest).more)
        gap := String.ofList lead
        index := index
        line := line + lineFeeds lead
        lastLine := line + lineFeeds lead + lineFeeds (c :: rest.take (lexeme frames c rest).more)
        proper := isIdentifier_of_lexeme } ::
      scan (lexeme frames c rest).frames (index + 1)
        (line + lineFeeds lead + lineFeeds (c :: rest.take (lexeme frames c rest).more))
        (rest.drop (lexeme frames c rest).more) := by
  have dropped : (lead ++ c :: rest).drop lead.length = c :: rest := by simp
  have taken : (lead ++ c :: rest).take lead.length = lead := by simp
  rw [scan]
  simp only [gap]
  split
  · rename_i none
    rw [gap, dropped] at none
    cases none
  · rename_i found more shorter
    rw [gap, dropped] at shorter
    cases shorter
    simp only [taken]

theorem lexeme_word {first : Char} {letters text : List Char} (start : Text.isIdentifierStart first)
    (parts : ∀ d ∈ letters, Text.isIdentifierPart d) (ends : text.head?.all (!Text.isIdentifierPart ·))
    (hyphen : '-' ∉ first :: (letters ++ text)) :
    lexeme [] first (letters ++ text) = ⟨.word, letters.length, []⟩ := by
  -- One word of the language has a hyphen, and it would be read beyond its first part.
  have plain : hyphenated.isPrefixOf (first :: (letters ++ text)) = false := by
    by_contra hyphened
    have begun := List.isPrefixOf_iff_prefix.mp (Bool.not_eq_false _ ▸ hyphened)
    exact hyphen (begun.subset (by decide))
  have taken : (letters ++ text).takeWhile Text.isIdentifierPart = letters := by
    rw [List.takeWhile_append_of_pos parts]
    cases text with
    | nil => simp
    | cons d text =>
        have stop : Text.isIdentifierPart d = false := by simpa using ends
        simp [stop]
  simp [lexeme, codeLexeme, start, plain, taken]

def closesSign (mark : Sign) (text : List Char) : Bool :=
  match mark with
  | .dot => text.head?.all fun c => !c.isDigit && c != '.'
  | .openAngle => text.head?.all fun c => c != '<' && c != '='
  | .star => text.head?.all (· != '=')
  | _ => true

theorem digitsLength_eq_zero {isDigit : Char → Bool} {several : Bool} {source : List Char}
    (other : source.head?.all (!isDigit ·)) : digitsLength isDigit several source = 0 := by
  have none : source.takeWhile isDigit = [] := by
    cases source with
    | nil => rfl
    | cons c rest =>
        have stop : isDigit c = false := by simpa using other
        simp [stop]
  rw [digitsLength, none, List.length_nil, if_pos rfl]

theorem numberLength_eq_zero {c : Char} {rest : List Char} (other : c.isDigit = false)
    (point : c = '.' → rest.head?.all (!·.isDigit)) : numberLength (c :: rest) = 0 := by
  have zero : c ≠ '0' := by rintro rfl; cases other
  have none : decimalDigits (c :: rest) = 0 := digitsLength_eq_zero (by simpa using other)
  have whole : wholeLength (c :: rest) = 0 := by simp [wholeLength, other]
  have marked (mark : List Char) (digits : Char → Bool) : markedLength mark digits (c :: rest) = 0 := by
    simp [markedLength, zero]
  have octal : octalLength (c :: rest) = 0 := by simp [octalLength, zero]
  have pointed : pointLength (c :: rest) = 0 := by
    by_cases dot : c = '.'
    · subst dot
      have fraction : decimalDigits rest = 0 := digitsLength_eq_zero (point rfl)
      simp [pointLength, none, fraction]
    · simp [pointLength, none, dot]
  have scaled : scaledLength (c :: rest) = 0 := by simp [scaledLength, whole]
  have hex : hexPointLength (c :: rest) = 0 := by simp [hexPointLength, zero]
  simp [numberLength, whole, marked, octal, pointed, scaled, hex, withSuffix]

theorem symbolLength_char {mark : Sign} {text : List Char} (closed : closesSign mark text) :
    symbolLength (mark.char :: text) = 1 := by
  have short : longSymbols.find? (fun sign => sign.toList.isPrefixOf (mark.char :: text)) = none := by
    rw [List.find?_eq_none]
    cases text with
    | nil => cases mark <;> decide
    | cons d text =>
      have flip (e : Char) : e = d ↔ d = e := eq_comm
      cases mark
      all_goals simp_all [longSymbols, closesSign, Sign.char, flip '<', flip '=', flip '.']
  rw [symbolLength, short]
  cases mark <;> rfl

theorem lexeme_sign {mark : Sign} {text : List Char} (closed : closesSign mark text) :
    lexeme [] mark.char text = ⟨.symbol, 0, []⟩ := by
  have other : Text.isIdentifierStart mark.char = false ∧ mark.char ≠ '"' ∧ mark.char ≠ '\'' ∧
      mark.char.isDigit = false := by
    cases mark <;> decide
  have point : mark.char = '.' → text.head?.all (!·.isDigit) := by
    cases text <;> cases mark <;> simp_all [Sign.char, closesSign]
  obtain ⟨start, quote, apostrophe, digit⟩ := other
  simp [lexeme, codeLexeme, start, quote, apostrophe, numberLength_eq_zero digit point,
    symbolLength_char closed, afterSymbol]

end Lexer

namespace Place

open Piece

variable (place : Place)

theorem gapBefore_lead {c : Char} (rest : List Char) (solid : Text.isBlank c = false)
    (slash : c ≠ '/') : gapBefore [] (place.lead ++ c :: rest) = place.lead.length :=
  gapLength_blank place.blank (gapLength_solid solid slash)

theorem scan_word (id : Identifier) {text : List Char} (ends : text.head?.all (!Text.isIdentifierPart ·))
    (hyphen : '-' ∉ id.text.toList ++ text) :
    place.scan (id.text.toList ++ text) = place.word id :: place.next.scan text := by
  obtain ⟨first, letters, spelled, start, parts⟩ := id.exists_letters
  have among : first ∈ id.text.toList := by simp [spelled]
  have found : lexeme [] first (letters ++ text) = ⟨.word, letters.length, []⟩ :=
    lexeme_word start parts ends (by rwa [spelled] at hyphen)
  have feeds : lineFeeds (first :: letters) = 0 := by
    rw [← spelled, lineFeeds, List.count_eq_zero]
    exact fun member => id.ne_of_mem member (by decide) rfl
  have gap := place.gapBefore_lead (letters ++ text) (id.not_isBlank_of_mem among)
    (id.ne_of_mem among (by decide))
  rw [scan, spelled, List.cons_append, scan_token gap]
  simp only [found, List.take_left, List.drop_left, feeds]
  rw [scan]
  simp [word, next, line, ← spelled]

theorem scan_sign (mark : Sign) {text : List Char} (closed : closesSign mark text) :
    place.scan (mark.char :: text) = place.sign mark :: place.next.scan text := by
  have solid : Text.isBlank mark.char = false ∧ mark.char ≠ '/' ∧ mark.char ≠ '\n' := by
    cases mark <;> decide
  obtain ⟨blank, slash, feed⟩ := solid
  rw [scan, scan_token (place.gapBefore_lead text blank slash)]
  simp only [lexeme_sign closed]
  rw [scan]
  simp [sign, next, line, lineFeeds, feed, Sign.singleton_char]

theorem word_ends {id : Identifier} {rest : List Piece} (text : List Char)
    (apart : (Piece.word id).mayPrecede rest.head?) :
    (spell rest ++ '\n' :: text).head?.all (!Text.isIdentifierPart ·) := by
  match rest with
  | [] => rfl
  | .space :: _ => rfl
  | .sign mark :: _ => cases mark <;> rfl
  | .word _ :: _ => cases apart

theorem sign_ends {mark : Sign} {rest : List Piece} (text : List Char)
    (apart : (Piece.sign mark).mayPrecede rest.head?) :
    closesSign mark (spell rest ++ '\n' :: text) := by
  match rest with
  | [] => cases mark <;> rfl
  | .space :: _ => cases mark <;> rfl
  | .sign other :: _ => cases mark <;> cases other <;> first | rfl | cases apart
  | .word id :: _ =>
    obtain ⟨first, letters, spelled, start, -⟩ := id.exists_letters
    have among : first ∈ id.text.toList := by simp [spelled]
    have letter : first.isDigit = false ∧ first ≠ '.' ∧ first ≠ '<' ∧ first ≠ '=' :=
      ⟨not_isDigit_of_isIdentifierStart start, id.ne_of_mem among (by decide),
        id.ne_of_mem among (by decide), id.ne_of_mem among (by decide)⟩
    cases mark <;> simp [closesSign, spell, chars, spelled, letter]

theorem scan_spell {pieces : List Piece} (apart : areApart pieces) {text : List Char}
    (hyphen : '-' ∉ spell pieces ++ '\n' :: text) :
    place.scan (spell pieces ++ '\n' :: text) =
      place.lay pieces ++ (place.after pieces).scan ('\n' :: text) := by
  induction pieces generalizing place with
  | nil => rfl
  | cons piece rest ih =>
      obtain ⟨first, others⟩ := (Bool.and_eq_true _ _).mp apart
      rw [spell_cons, List.append_assoc] at hyphen ⊢
      have later : '-' ∉ spell rest ++ '\n' :: text := fun member =>
        hyphen (List.mem_append_right _ member)
      cases piece with
      | space => rw [chars, List.singleton_append, scan_space, ih _ others later, lay, after]
      | word id => rw [chars, scan_word _ _ (word_ends text first) hyphen, ih _ others later, lay, after,
          List.cons_append]
      | sign mark => rw [chars, List.singleton_append, scan_sign _ _ (sign_ends text first),
          ih _ others later, lay, after, List.cons_append]

theorem scan_nil : place.scan [] = [] := by
  have gap : gapBefore [] (place.lead ++ []) = place.lead.length :=
    gapLength_blank place.blank (by rw [gapLength])
  rw [scan, Lexer.scan]
  split
  · rfl
  · rename_i found more shorter
    rw [gap, List.append_nil, List.drop_length] at shorter
    cases shorter

theorem not_mem_spellLines {c : Char}
    (other : (Text.isIdentifierStart c || Text.isIdentifierPart c) = false)
    (unsigned : ∀ mark : Sign, c ≠ mark.char) (solid : c ≠ ' ' ∧ c ≠ '\n')
    (lines : List (List Piece)) : c ∉ spellLines lines := by
  intro member
  simp only [spellLines, spell, List.mem_flatMap, List.mem_append, List.mem_singleton] at member
  obtain ⟨line, -, ⟨piece, -, inside⟩ | feed⟩ := member
  · cases piece with
    | word id => exact id.ne_of_mem inside other rfl
    | sign mark => exact unsigned mark (List.mem_singleton.mp inside)
    | space => exact solid.1 (List.mem_singleton.mp inside)
  · exact solid.2 feed

theorem hyphen_not_mem_spellLines (lines : List (List Piece)) : '-' ∉ spellLines lines :=
  not_mem_spellLines (by decide) (by rintro ⟨⟩ <;> decide) (by decide) lines

theorem scan_spellLines {lines : List (List Piece)} (apart : ∀ line ∈ lines, areApart line) :
    place.scan (spellLines lines) = place.layLines lines := by
  induction lines generalizing place with
  | nil => exact place.scan_nil
  | cons pieces rest ih =>
      have hyphen := hyphen_not_mem_spellLines (pieces :: rest)
      rw [spellLines, List.flatMap_cons, List.append_assoc] at hyphen ⊢
      rw [List.singleton_append] at hyphen ⊢
      rw [scan_spell _ (apart pieces (by simp)) hyphen, scan_newline, layLines, ← spellLines,
        ih _ fun line member => apart line (by simp [member])]

end Place

theorem Lexer.tokens_spellLines {lines : List (List Piece)}
    (apart : ∀ line ∈ lines, Piece.areApart line) :
    tokens (Piece.spellLines lines) = Place.beginning.layLines lines := by
  have other : (Text.isIdentifierStart '\uFEFF' || Text.isIdentifierPart '\uFEFF') = false := by
    simp only [Text.isIdentifierStart, Text.isIdentifierPart, Text.inRanges, ← Array.any_toList]
    decide +kernel
  have unsigned (mark : Sign) : '\uFEFF' ≠ mark.char := by cases mark <;> simp [Sign.char]
  -- A byte order mark in front would be passed over.
  have unmarked : '\uFEFF' ∉ Piece.spellLines lines :=
    Place.not_mem_spellLines other unsigned (by simp) lines
  rw [← Place.scan_spellLines _ apart, Place.scan]
  unfold tokens
  split
  · rename_i rest marked
    exact absurd (marked ▸ List.mem_cons_self) unmarked
  · rfl

/-! ## The text of a line -/

namespace Place

open Piece

theorem toList_foldl_lay (place : Place) (pieces : List Piece) (text : String) :
    ((place.lay pieces).foldl (fun text token => text ++ token.gap ++ token.text) text).toList ++
        (place.after pieces).lead =
      text.toList ++ place.lead ++ spell pieces := by
  induction pieces generalizing place text with
  | nil => simp [lay, after]
  | cons piece rest ih =>
      cases piece with
      | space => rw [lay, after, ih, spell_cons]; simp [space, past, chars]
      | word id => rw [lay, after, List.foldl_cons, ih, spell_cons]; simp [word, next, chars]
      | sign mark =>
          rw [lay, after, List.foldl_cons, ih, spell_cons]
          simp [sign, next, chars, ← Sign.singleton_char]

theorem lead_after {pieces : List Piece} (apart : areApart pieces) (written : pieces ≠ [])
    (place : Place) : (place.after pieces).lead = [] := by
  induction pieces generalizing place with
  | nil => exact absurd rfl written
  | cons piece rest ih =>
      obtain ⟨next, others⟩ := (Bool.and_eq_true _ _).mp apart
      by_cases last : rest = []
      · subst last
        cases piece with
        | space => cases next
        | word id => rfl
        | sign mark => rfl
      · cases piece <;> exact ih others last _

theorem spell_lay {id : Identifier} {rest : List Piece} (apart : areApart (.word id :: rest))
    (place : Place) :
    Token.spell (place.lay (.word id :: rest)) = String.ofList (spell (.word id :: rest)) := by
  have put := place.next.toList_foldl_lay rest id.text
  have clear : (place.next.after rest).lead = [] := lead_after apart (by simp) place
  rw [clear, List.append_nil] at put
  rw [← String.toList_inj, String.toList_ofList, lay, Token.spell]
  exact put.trans (by simp [next, chars])

end Place

namespace Piece

open Text

theorem isWord_chars {piece : Piece} (solid : piece ≠ space) : IsWord piece.chars := by
  cases piece with
  | word id =>
      obtain ⟨first, letters, spelled, -⟩ := id.exists_letters
      exact ⟨by simp [chars, spelled], fun c member => id.not_isBlank_of_mem member⟩
  | sign mark =>
      have whole : Text.isBlank mark.char = false := by cases mark <;> rfl
      exact ⟨by simp [chars], by simpa [chars] using whole⟩
  | space => exact absurd rfl solid

theorem exists_words {pieces : List Piece} (apart : areApart pieces) (written : pieces ≠ []) :
    ∃ first more, (∀ word ∈ first :: more, IsWord word) ∧
      spell pieces = (if pieces.head? = some space then [' '] else []) ++
        ((first :: more).intersperse [' ']).flatten := by
  induction pieces with
  | nil => exact absurd rfl written
  | cons piece rest ih =>
      obtain ⟨next, others⟩ := (Bool.and_eq_true _ _).mp apart
      by_cases blank : piece = space
      · subst blank
        have more : rest ≠ [] := by rintro rfl; cases next
        have solid : rest.head? ≠ some space := by
          intro spaced
          rw [spaced] at next
          cases next
        obtain ⟨first, later, all, spelled⟩ := ih others more
        exact ⟨first, later, all, by simpa [chars, solid] using spelled⟩
      · have isWord := isWord_chars blank
        by_cases alone : rest = []
        · exact ⟨piece.chars, [], by simpa using isWord, by simp [blank, alone]⟩
        obtain ⟨first, later, all, spelled⟩ := ih others alone
        by_cases spaced : rest.head? = some space
        · refine ⟨piece.chars, first :: later, ?_, ?_⟩
          · exact List.forall_mem_cons.mpr ⟨isWord, all⟩
          · simpa [blank, spaced] using spelled
        · refine ⟨piece.chars ++ first, later, ?_, ?_⟩
          · obtain ⟨head, tail⟩ := List.forall_mem_cons.mp all
            refine List.forall_mem_cons.mpr ⟨⟨by simp [isWord.1], fun c member => ?_⟩, tail⟩
            exact (List.mem_append.mp member).elim (isWord.2 c) (head.2 c)
          · rw [spell_cons, spelled]
            cases later <;> simp [blank, spaced]

theorem squash_spell {pieces : List Piece} (apart : areApart pieces) (solid : pieces.head? ≠ some space) :
    squash (String.ofList (spell pieces)) = String.ofList (spell pieces) := by
  by_cases blank : pieces = []
  · subst blank
    rfl
  · obtain ⟨first, more, all, spelled⟩ := exists_words apart blank
    rw [if_neg solid, List.nil_append] at spelled
    rw [squash, String.toList_ofList, spelled, words_spaced all]

end Piece

end CallContext.Java
