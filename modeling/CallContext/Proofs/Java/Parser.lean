import CallContext.Java.Parser.Grammar
import CallContext.Proofs.Java.Written.Layout

/-!
Parsers on laid out source. What a parser does is read off its definition once the next tokens are
known, so there is one equation for each way of putting parsers together, and one for each test of a
word or sign.
-/

namespace CallContext.Java

namespace Place

variable (place : Place) (id : Identifier) (mark : Sign) (text : String) (words : List String)

@[simp] theorem word_isSymbol : (place.word id).isSymbol text = false := rfl

@[simp] theorem word_isWord : (place.word id).isWord text = (id.text == text) := rfl

@[simp] theorem sign_isSymbol : (place.sign mark).isSymbol text = (mark.text == text) := rfl

@[simp] theorem sign_isWord : (place.sign mark).isWord text = false := rfl

@[simp] theorem sign_isOneOf : (place.sign mark).isOneOf words = false := rfl

@[simp] theorem word_kind : (place.word id).kind = .word := rfl

@[simp] theorem sign_kind : (place.sign mark).kind = .symbol := rfl

@[simp] theorem word_text : (place.word id).text = id.text := rfl

@[simp] theorem sign_text : (place.sign mark).text = mark.text := rfl

@[simp] theorem word_line : (place.word id).line = place.line := rfl

@[simp] theorem sign_line : (place.sign mark).line = place.line := rfl

theorem word_isOneOf {id : Identifier} {words : List String} (listed : id.text ∈ words) :
    (place.word id).isOneOf words = true := by
  simp [Token.isOneOf, listed]

theorem not_isSymbol_of_mem_lay {pieces : List Piece} {sign : String}
    (other : ∀ mark, .sign mark ∈ pieces → mark.text ≠ sign) {token : Token}
    (member : token ∈ place.lay pieces) : token.isSymbol sign = false := by
  induction pieces generalizing place with
  | nil => cases member
  | cons piece pieces ih =>
      have later := fun place => ih place fun mark inside => other mark (List.mem_cons_of_mem _ inside)
      cases piece with
      | space => exact later _ member
      | word id =>
          rcases List.mem_cons.mp member with rfl | among
          · rfl
          · exact later _ among
      | sign mark =>
          rcases List.mem_cons.mp member with rfl | among
          · exact beq_false_of_ne (other mark List.mem_cons_self)
          · exact later _ among

variable {ι α : Type}

def collect (pieces : ι → List Piece) (value : Place → ι → α) : Place → List ι → List α
  | _, [] => []
  | place, item :: rest => value place item :: collect pieces value (place.after (pieces item)) rest

theorem collect_const (pieces : ι → List Piece) (value : ι → α) (items : List ι) :
    place.collect pieces (fun _ item => value item) items = items.map value := by
  induction items generalizing place with
  | nil => rfl
  | cons item items ih => rw [collect, ih, List.map_cons]

def collectLines (lines : ι → List (List Piece)) (value : Place → ι → α) :
    Place → List ι → List α
  | _, [] => []
  | place, item :: rest =>
    value place item :: collectLines lines value (place.afterLines (lines item)) rest

variable (lines : ι → List (List Piece)) (value : Place → ι → α)

theorem collectLines_append (items others : List ι) :
    place.collectLines lines value (items ++ others) = place.collectLines lines value items ++
      collectLines lines value (place.afterLines (items.flatMap lines)) others := by
  induction items generalizing place with
  | nil => rfl
  | cons item items ih =>
      rw [List.cons_append, collectLines, ih, List.flatMap_cons, afterLines_append, collectLines,
        List.cons_append]

theorem collectLines_map {κ : Type} (item : κ → ι) (sources : List κ) :
    place.collectLines lines value (sources.map item) =
      place.collectLines (fun source => lines (item source)) (fun place source => value place (item source))
        sources := by
  induction sources generalizing place with
  | nil => rfl
  | cons source sources ih => rw [List.map_cons, collectLines, ih, collectLines]

theorem collectLines_const (value : ι → α) (items : List ι) :
    place.collectLines lines (fun _ item => value item) items = items.map value := by
  induction items generalizing place with
  | nil => rfl
  | cons item items ih => rw [collectLines, ih, List.map_cons]

theorem map_collectLines {β : Type} (result : α → β) (items : List ι) :
    (place.collectLines lines value items).map result =
      place.collectLines lines (fun place item => result (value place item)) items := by
  induction items generalizing place with
  | nil => rfl
  | cons item items ih => rw [collectLines, List.map_cons, ih, collectLines]

end Place

namespace Parser

variable {α β : Type} (tokens : List Token)

@[simp] theorem bind_apply (first : Parser α) (next : α → Parser β) :
    (first >>= next) tokens = match first tokens with
      | .success value rest => next value rest
      | .failure rest => .failure rest := rfl

theorem bind_of_success {first : Parser α} {next : α → Parser β} {tokens rest : List Token} {value : α}
    (read : first tokens = .success value rest) : (first >>= next) tokens = next value rest := by
  rw [bind_apply, read]

@[simp] theorem pure_apply (value : α) : (pure value : Parser α) tokens = .success value tokens := rfl

@[simp] theorem ite_apply (condition : Prop) [Decidable condition] (yes no : Parser α) :
    (if condition then yes else no) tokens = if condition then yes tokens else no tokens := by
  split <;> rfl

@[simp] theorem fail_apply : (fail : Parser α) tokens = .failure tokens := rfl

@[simp] theorem ahead_apply : ahead tokens = .success tokens tokens := rfl

theorem orElse_of_success {first second : Parser α} {tokens rest : List Token} {value : α}
    (read : first tokens = .success value rest) : orElse first second tokens = .success value rest := by
  rw [orElse, read]

theorem orElse_of_failure {first second : Parser α} {tokens rest left : List Token} {value : α}
    (unread : first tokens = .failure left) (read : second tokens = .success value rest) :
    orElse first second tokens = .success value rest := by
  rw [orElse, unread, read]

@[simp] theorem nextIs_apply (condition : Token → Bool) :
    nextIs condition tokens = .success (tokens.head?.any condition) tokens := rfl

@[simp] theorem nextSymbol_apply (text : String) :
    nextSymbol text tokens = .success (tokens.head?.any (·.isSymbol text)) tokens := rfl

@[simp] theorem nextWord_apply (text : String) :
    nextWord text tokens = .success (tokens.head?.any (·.isWord text)) tokens := rfl

@[simp] theorem token_cons (condition : Token → Bool) (first : Token) :
    token condition (first :: tokens) =
      if condition first then .success first tokens else .failure (first :: tokens) := rfl

theorem optionalSymbol_of_not {text : String} {tokens : List Token}
    (other : tokens.head?.any (·.isSymbol text) = false) :
    optionalSymbol text tokens = .success false tokens := by
  simp [optionalSymbol, other]

theorem optionalWord_of_not {text : String} {tokens : List Token}
    (other : tokens.head?.any (·.isWord text) = false) :
    optionalWord text tokens = .success false tokens := by
  simp [optionalWord, other]

variable (place : Place) (id : Identifier) (mark : Sign) (text : String)

@[simp] theorem symbol_sign :
    symbol text (place.sign mark :: tokens) =
      if mark.text = text then .success (place.sign mark) tokens
      else .failure (place.sign mark :: tokens) := by
  simp [symbol]

@[simp] theorem symbol_word :
    symbol text (place.word id :: tokens) = .failure (place.word id :: tokens) := rfl

@[simp] theorem word_word : word (place.word id :: tokens) = .success (place.word id) tokens := rfl

@[simp] theorem word_sign : word (place.sign mark :: tokens) = .failure (place.sign mark :: tokens) := rfl

@[simp] theorem keyword_word :
    keyword text (place.word id :: tokens) =
      if id.text = text then .success (place.word id) tokens
      else .failure (place.word id :: tokens) := by
  simp [keyword]

@[simp] theorem identifier_word :
    identifier (place.word id :: tokens) = .success id tokens := rfl

@[simp] theorem optionalSymbol_sign :
    optionalSymbol text (place.sign mark :: tokens) =
      if mark.text = text then .success true tokens else .success false (place.sign mark :: tokens) := by
  by_cases same : mark.text = text <;> simp [optionalSymbol, same]

@[simp] theorem optionalSymbol_word :
    optionalSymbol text (place.word id :: tokens) = .success false (place.word id :: tokens) := rfl

@[simp] theorem optionalWord_word :
    optionalWord text (place.word id :: tokens) =
      if id.text = text then .success true tokens else .success false (place.word id :: tokens) := by
  by_cases same : id.text = text <;> simp [optionalWord, same]

@[simp] theorem optionalWord_sign :
    optionalWord text (place.sign mark :: tokens) = .success false (place.sign mark :: tokens) := rfl

variable {ι : Type} {condition : Token → Bool} {one : Parser α}

theorem whileNext_of_not {tokens : List Token} (limit : Nat)
    (other : tokens.head?.any condition = false) :
    whileNext condition one limit tokens = .success [] tokens := by
  cases limit with
  | zero => rfl
  | succ limit =>
      rw [whileNext, bind_apply, nextIs_apply]
      simp only [other]
      rfl

theorem whileNext_lay (pieces : ι → List Piece) (value : Place → ι → α) (mayFollow : List Token → Prop)
    {items : List ι} {limit : Nat} {rest : List Token} (enough : items.length ≤ limit)
    (starts : ∀ item ∈ items, ∀ (place : Place) more,
      (place.lay (pieces item) ++ more).head?.any condition ∧ mayFollow (place.lay (pieces item) ++ more))
    (reads : ∀ item ∈ items, ∀ (place : Place) more, mayFollow more →
      one (place.lay (pieces item) ++ more) = .success (value place item) more)
    (stops : rest.head?.any condition = false) (follows : mayFollow rest) (place : Place) :
    whileNext condition one limit (place.lay (items.flatMap pieces) ++ rest) =
      .success (place.collect pieces value items) rest := by
  induction items generalizing limit place with
  | nil => exact whileNext_of_not limit stops
  | cons item items ih =>
      obtain ⟨limit, rfl⟩ := Nat.exists_eq_add_of_le' enough
      have later : whileNext condition one (limit + items.length)
          ((place.after (pieces item)).lay (items.flatMap pieces) ++ rest) =
            .success (Place.collect pieces value (place.after (pieces item)) items) rest :=
        ih (by omega) (fun other member => starts other (List.mem_cons_of_mem _ member))
          (fun other member => reads other (List.mem_cons_of_mem _ member)) _
      have may : mayFollow ((place.after (pieces item)).lay (items.flatMap pieces) ++ rest) := by
        cases items with
        | nil => exact follows
        | cons next items =>
            rw [List.flatMap_cons, Place.lay_append, List.append_assoc]
            exact (starts next (by simp) _ _).2
      rw [List.flatMap_cons, Place.lay_append, List.append_assoc, List.length_cons, ← Nat.add_assoc,
        whileNext, bind_apply, nextIs_apply]
      simp only [(starts item List.mem_cons_self _ _).1, if_true]
      rw [bind_apply, reads item List.mem_cons_self _ _ may]
      simp only [bind_apply, later, pure_apply, Place.collect]

theorem follows_afterCommas (pieces : ι → List Piece) {mayFollow : List Token → Prop}
    (comma : ∀ (place : Place) more, mayFollow (place.sign .comma :: more)) {rest : List Token}
    (follows : mayFollow rest) (items : List ι) (place : Place) :
    mayFollow (place.lay (Piece.afterCommas pieces items) ++ rest) := by
  cases items with
  | nil => exact follows
  | cons item items => exact comma place _

theorem whileNext_afterCommas (pieces : ι → List Piece) (value : Place → ι → α)
    {mayFollow : List Token → Prop} {items : List ι} {size limit : Nat} {rest : List Token}
    (small : Piece.weight (Piece.afterCommas pieces items) ≤ size) (enough : size ≤ limit)
    (comma : ∀ (place : Place) more, mayFollow (place.sign .comma :: more))
    (reads : ∀ item, Piece.weight (pieces item) ≤ size → ∀ (place : Place) more, mayFollow more →
      one (place.sign .comma :: (place.next.space.lay (pieces item) ++ more)) =
        .success (value place item) more)
    (stops : rest.head?.any (·.isSymbol ",") = false) (follows : mayFollow rest) (place : Place) :
    whileNext (·.isSymbol ",") one limit (place.lay (Piece.afterCommas pieces items) ++ rest) =
      .success (place.collect (Piece.afterComma pieces) value items) rest := by
  have fuel : items.length ≤ limit :=
    Nat.le_trans (Piece.length_le_afterCommas pieces items) (Nat.le_trans small enough)
  refine whileNext_lay (Piece.afterComma pieces) value mayFollow fuel
    (fun item _ place more => ⟨rfl, comma place _⟩) ?_ stops follows place
  intro item member place more may
  have within := Piece.weight_lt_afterCommas pieces member
  exact reads item (Nat.le_trans (Nat.le_of_lt within) small) place more may

theorem untilNext_layLines (lines : ι → List (List Piece)) (value : Place → ι → α) {items : List ι}
    {limit : Nat} {rest : List Token} (enough : items.length < limit)
    (starts : ∀ item ∈ items, ∀ (place : Place) more,
      (place.layLines (lines item) ++ more).head?.any condition = false)
    (reads : ∀ item ∈ items, ∀ (place : Place) more,
      one (place.layLines (lines item) ++ more) = .success (value place item) more)
    (stops : rest.head?.any condition) (place : Place) :
    untilNext condition one limit (place.layLines (items.flatMap lines) ++ rest) =
      .success (place.collectLines lines value items) rest := by
  induction items generalizing limit place with
  | nil =>
      obtain ⟨limit, rfl⟩ := Nat.exists_eq_succ_of_ne_zero (Nat.ne_of_gt enough)
      simp [untilNext, Place.layLines, Place.collectLines, stops]
  | cons item items ih =>
      obtain ⟨limit, rfl⟩ := Nat.exists_eq_succ_of_ne_zero (Nat.ne_zero_of_lt enough)
      have later (place : Place) : untilNext condition one limit
          (place.layLines (items.flatMap lines) ++ rest) =
            .success (place.collectLines lines value items) rest :=
        ih (Nat.lt_of_succ_lt_succ enough)
          (fun other member => starts other (List.mem_cons_of_mem _ member))
          (fun other member => reads other (List.mem_cons_of_mem _ member)) place
      have first := starts item List.mem_cons_self place
      have read := reads item List.mem_cons_self place
      simp [-List.head?_append, untilNext, Place.layLines_append, first, read, later, Place.collectLines]

end Parser

end CallContext.Java
