import Mathlib.Data.List.Infix
import CallContext.Java.CallSite
import CallContext.Java.Parser.Grammar
import CallContext.Proofs.Java.Parser

/-!
What parsers make of the tokens of a text. A parser is described by a condition on the values that it reads
anywhere in the text; what it leaves is an end of the text again. There is one rule for each way of putting
parsers together, and what the rules of the grammar read is found by going through their definitions.

Here the condition on code is that its calls are on lines of the text.
-/

namespace CallContext.Java

/-! ## Code -/

namespace Code

def From (tokens : List Token) (code : Code) : Prop :=
  ∀ site, .call site ∈ code.events → ∃ token ∈ tokens, token.line = site.line

def AreFrom (tokens : List Token) (codes : List Code) : Prop :=
  ∀ code ∈ codes, code.From tokens

theorem mem_eventsOf {codes : List Code} {event : Event} :
    event ∈ eventsOf codes ↔ ∃ code ∈ codes, event ∈ code.events := by
  induction codes with
  | nil => simp [eventsOf]
  | cons first rest ih => simp [eventsOf, ih]

theorem call_not_mem_variableEvent (type : String) (code : Code) (site : CallSite) :
    .call site ∉ code.variableEvent type := by
  cases code <;> simp [variableEvent]

variable {tokens : List Token} {parts others : List Code}

@[simp] theorem areFrom_nil : AreFrom tokens [] := by
  simp [AreFrom]

@[simp] theorem areFrom_cons {code : Code} :
    AreFrom tokens (code :: parts) ↔ code.From tokens ∧ AreFrom tokens parts := by
  simp [AreFrom]

@[simp] theorem areFrom_append :
    AreFrom tokens (parts ++ others) ↔ AreFrom tokens parts ∧ AreFrom tokens others := by
  simp [AreFrom, or_imp, forall_and]

theorem areFrom_flatten {lists : List (List Code)} (all : ∀ list ∈ lists, AreFrom tokens list) :
    AreFrom tokens lists.flatten := by
  intro code member
  obtain ⟨list, listed, inside⟩ := List.mem_flatten.mp member
  exact all list listed code inside

theorem areFrom_map {α : Type} {code : α → Code} {items : List α}
    (all : ∀ item ∈ items, (code item).From tokens) : AreFrom tokens (items.map code) := by
  intro part member
  obtain ⟨item, listed, rfl⟩ := List.mem_map.mp member
  exact all item listed

theorem areFrom_flatMap {α : Type} {codes : α → List Code} {items : List α}
    (all : ∀ item ∈ items, AreFrom tokens (codes item)) : AreFrom tokens (items.flatMap codes) := by
  intro code member
  obtain ⟨item, listed, inside⟩ := List.mem_flatMap.mp member
  exact all item listed code inside

theorem areFrom_iff_eventsOf : AreFrom tokens parts ↔
    ∀ site, .call site ∈ eventsOf parts → ∃ token ∈ tokens, token.line = site.line := by
  simp only [AreFrom, From, mem_eventsOf]
  constructor
  · rintro all site ⟨code, member, called⟩
    exact all code member site called
  · intro all code member site called
    exact all site ⟨code, member, called⟩

@[simp] theorem from_implicit : implicit.From tokens := by
  simp [From, events]

@[simp] theorem from_this : this.From tokens := by
  simp [From, events]

@[simp] theorem from_super : super.From tokens := by
  simp [From, events]

@[simp] theorem from_name {id : Identifier} : (name id).From tokens := by
  simp [From, events]

@[simp] theorem from_field {object : Code} {id : Identifier} :
    (field object id).From tokens ↔ object.From tokens := by
  simp [From, events]

@[simp] theorem from_call {object : Code} {method : String} {line : Nat} :
    (call object parts method others line).From tokens ↔
      (object.From tokens ∧ AreFrom tokens parts ∧ AreFrom tokens others) ∧
        ∃ token ∈ tokens, token.line = line := by
  simp only [areFrom_iff_eventsOf, From, events, List.mem_append, List.mem_singleton, Event.call.injEq,
    or_imp, forall_and, forall_eq, and_assoc]

@[simp] theorem from_creation {type : String} :
    (creation type parts).From tokens ↔ AreFrom tokens parts := by
  rw [areFrom_iff_eventsOf, From, events]

@[simp] theorem from_cast {type : String} : (cast type parts).From tokens ↔ AreFrom tokens parts := by
  rw [areFrom_iff_eventsOf, From, events]

@[simp] theorem from_parenthesized {inner : Code} :
    (parenthesized inner).From tokens ↔ inner.From tokens := by
  simp [From, events]

@[simp] theorem from_locals {type : String} :
    (locals parts type others).From tokens ↔ AreFrom tokens parts ∧ AreFrom tokens others := by
  simp [areFrom_iff_eventsOf, From, events, call_not_mem_variableEvent, or_imp, forall_and]

@[simp] theorem from_declarator {id : String} :
    (declarator id parts others).From tokens ↔ AreFrom tokens parts ∧ AreFrom tokens others := by
  simp [areFrom_iff_eventsOf, From, events, or_imp, forall_and]

@[simp] theorem from_binding {id type : String} :
    (binding parts id type).From tokens ↔ AreFrom tokens parts := by
  rw [areFrom_iff_eventsOf, From, events]
  split_ifs <;> simp

@[simp] theorem from_caught {id : String} {types : List String} :
    (caught parts id types).From tokens ↔ AreFrom tokens parts := by
  rcases types with _ | ⟨_, _ | ⟨_, _⟩⟩ <;> simp [areFrom_iff_eventsOf, From, events]

@[simp] theorem from_other : (other parts).From tokens ↔ AreFrom tokens parts := by
  rw [areFrom_iff_eventsOf, From, events]

theorem From.mono {code : Code} {more : List Token} (origin : code.From tokens)
    (subset : tokens ⊆ more) : code.From more := by
  intro site called
  obtain ⟨token, member, same⟩ := origin site called
  exact ⟨token, subset member, same⟩

end Code

/-! ## Members -/

def MethodSyntax.From (tokens : List Token) (declaration : MethodSyntax) : Prop :=
  isIdentifier declaration.name ∧ ∃ start rest, start :: rest <:+ tokens ∧
    declaration.line = start.line ∧ ∀ body ∈ declaration.body, body.From (start :: rest)

namespace Member

mutual

def declarations : Member → List MethodSyntax
  | .method declaration => [declaration]
  | .type _ members => declarationsOf members
  | .fields .. | .other _ => []

def declarationsOf : List Member → List MethodSyntax
  | [] => []
  | first :: rest => first.declarations ++ declarationsOf rest

end

def From (tokens : List Token) (member : Member) : Prop :=
  member.code.From tokens ∧ ∀ declaration ∈ member.declarations, declaration.From tokens

theorem mem_declarationsOf {members : List Member} {declaration : MethodSyntax} :
    declaration ∈ declarationsOf members ↔ ∃ member ∈ members, declaration ∈ member.declarations := by
  induction members with
  | nil => simp [declarationsOf]
  | cons first rest ih => simp [declarationsOf, ih]

theorem codes_eq_map (members : List Member) : codes members = members.map code := by
  induction members with
  | nil => rfl
  | cons first rest ih => rw [codes, ih, List.map_cons]

variable {tokens : List Token} {parts : List Code}

@[simp] theorem from_fields {type : String} {names : List String} :
    (fields type names parts).From tokens ↔ Code.AreFrom tokens parts := by
  simp [From, code, declarations]

@[simp] theorem from_method {declaration : MethodSyntax} :
    (method declaration).From tokens ↔
      (Code.AreFrom tokens declaration.heading ∧ Code.AreFrom tokens declaration.body.toList) ∧
        declaration.From tokens := by
  simp [From, code, declarations]

@[simp] theorem from_other : (other parts).From tokens ↔ Code.AreFrom tokens parts := by
  simp [From, code, declarations]

theorem areFrom_codes {members : List Member} (all : ∀ member ∈ members, member.From tokens) :
    Code.AreFrom tokens (codes members) := by
  rw [codes_eq_map]
  exact Code.areFrom_map fun member listed => (all member listed).1

theorem from_type {heading : TypeHeading} {members : List Member}
    (before : Code.AreFrom tokens heading.heading) (all : ∀ member ∈ members, member.From tokens) :
    (type heading members).From tokens := by
  refine ⟨?_, fun declaration listed => ?_⟩
  · rw [code, Code.from_other, Code.areFrom_append]
    exact ⟨before, areFrom_codes all⟩
  · rw [declarations, mem_declarationsOf] at listed
    obtain ⟨member, among, inside⟩ := listed
    exact (all member among).2 declaration inside

end Member

theorem MethodSyntax.From.mono {tokens more : List Token} {declaration : MethodSyntax}
    (origin : declaration.From tokens) (suffix : tokens <:+ more) : declaration.From more := by
  obtain ⟨named, start, rest, inside, line, body⟩ := origin
  exact ⟨named, start, rest, inside.trans suffix, line, body⟩

theorem Member.From.mono {tokens more : List Token} {member : Member} (origin : member.From tokens)
    (suffix : tokens <:+ more) : member.From more :=
  ⟨origin.1.mono suffix.subset, fun declaration listed => (origin.2 declaration listed).mono suffix⟩

/-! ## Parsers -/

namespace Parser

variable {α β : Type} {whole : List Token} {post : α → Prop} {parser : Parser α}

theorem bind_eq_success {next : α → Parser β} {tokens rest : List Token} {value : β}
    (read : (parser >>= next) tokens = .success value rest) :
    ∃ middle left, parser tokens = .success middle left ∧ next middle left = .success value rest := by
  rw [bind_apply] at read
  cases begun : parser tokens with
  | success middle left =>
      rw [begun] at read
      exact ⟨middle, left, rfl, read⟩
  | failure left =>
      rw [begun] at read
      cases read

theorem orElse_eq_success {first second : Parser α} {tokens rest : List Token} {value : α}
    (read : orElse first second tokens = .success value rest) :
    first tokens = .success value rest ∨ second tokens = .success value rest := by
  rw [Parser.orElse] at read
  cases begun : first tokens with
  | success found left =>
      rw [begun] at read
      exact .inl read
  | failure place =>
      rw [begun] at read
      cases again : second tokens with
      | success found left =>
          rw [again] at read
          exact .inr read
      | failure place =>
          rw [again] at read
          cases read

/-- At every end of the given text, a parser leaves an end of it, and its values are as described. -/
def Yields (whole : List Token) (parser : Parser α) (post : α → Prop) : Prop :=
  ∀ ⦃tokens value rest⦄, tokens <:+ whole → parser tokens = .success value rest →
    rest <:+ whole ∧ post value

namespace Yields

protected theorem pure {value : α} (holds : post value) : Yields whole (pure value) post := by
  intro tokens found rest within read
  cases read
  exact ⟨within, holds⟩

protected theorem fail : Yields whole (Parser.fail : Parser α) post := by
  intro tokens found rest within read
  cases read

protected theorem bind {next : α → Parser β} {result : β → Prop} (first : Yields whole parser post)
    (onward : ∀ value, post value → Yields whole (next value) result) :
    Yields whole (parser >>= next) result := by
  intro tokens value rest within read
  obtain ⟨middle, left, begun, continued⟩ := bind_eq_success read
  obtain ⟨inside, holds⟩ := first within begun
  exact onward middle holds inside continued

protected theorem andThen {next : α → Parser β} {result : β → Prop} (first : Yields whole parser post)
    (onward : ∀ value, Yields whole (next value) result) : Yields whole (parser >>= next) result :=
  first.bind fun value _ => onward value

theorem fail_bind {next : α → Parser β} {result : β → Prop} :
    Yields whole ((Parser.fail : Parser α) >>= next) result := by
  intro tokens value rest within read
  obtain ⟨_, _, begun, _⟩ := bind_eq_success read
  cases begun

protected theorem ite {condition : Prop} [Decidable condition] {yes no : Parser α}
    (positive : Yields whole yes post) (negative : Yields whole no post) :
    Yields whole (if condition then yes else no) post := by
  split
  · exact positive
  · exact negative

protected theorem orElse {first second : Parser α} (one : Yields whole first post)
    (other : Yields whole second post) : Yields whole (orElse first second) post := by
  intro tokens value rest within read
  rcases orElse_eq_success read with begun | again
  · exact one within begun
  · exact other within again

protected theorem mono {weaker : α → Prop} (one : Yields whole parser post)
    (implies : ∀ value, post value → weaker value) : Yields whole parser weaker := by
  intro tokens value rest within read
  exact (one within read).imp_right (implies value)

theorem of_looks (look : List Token → α) (looks : ∀ tokens, parser tokens = .success (look tokens) tokens) :
    Yields whole parser fun _ => True := by
  intro tokens value rest within read
  rw [looks] at read
  cases read
  exact ⟨within, trivial⟩

end Yields

theorem suffix_of_cons {first : Token} {rest : List Token} (within : first :: rest <:+ whole) :
    rest <:+ whole :=
  (List.suffix_cons first rest).trans within

theorem mem_of_cons {first : Token} {rest : List Token} (within : first :: rest <:+ whole) :
    first ∈ whole :=
  within.subset List.mem_cons_self

/-! ## Single tokens -/

theorem ahead_yields : Yields whole ahead (· <:+ whole) := by
  intro tokens value rest within read
  cases read
  exact ⟨within, within⟩

theorem nextIs_yields {condition : Token → Bool} : Yields whole (nextIs condition) fun _ => True :=
  .of_looks _ fun _ => rfl

theorem nextSymbol_yields {text : String} : Yields whole (nextSymbol text) fun _ => True :=
  nextIs_yields

theorem nextWord_yields {text : String} : Yields whole (nextWord text) fun _ => True :=
  nextIs_yields

theorem token_yields {condition : Token → Bool} :
    Yields whole (token condition) fun found => condition found := by
  intro tokens value rest within read
  cases tokens with
  | nil => cases read
  | cons first others =>
      rw [token] at read
      split_ifs at read with accepted
      cases read
      exact ⟨suffix_of_cons within, accepted⟩

theorem symbol_yields {text : String} : Yields whole (symbol text) fun _ => True :=
  token_yields.mono fun _ _ => trivial

theorem keyword_yields {text : String} : Yields whole (keyword text) fun _ => True :=
  token_yields.mono fun _ _ => trivial

theorem word_yields : Yields whole word fun found => isIdentifier found.text :=
  token_yields.mono fun found isWord => found.proper (by simpa using isWord)

theorem identifier_yields : Yields whole identifier fun _ => True := by
  intro tokens value rest within read
  cases tokens with
  | nil => cases read
  | cons first others =>
      rw [identifier] at read
      split_ifs at read
      cases read
      exact ⟨suffix_of_cons within, trivial⟩

theorem optionalSymbol_yields {text : String} : Yields whole (optionalSymbol text) fun _ => True := by
  unfold optionalSymbol
  refine nextSymbol_yields.andThen fun _ => .ite ?_ (.pure trivial)
  exact symbol_yields.andThen fun _ => .pure trivial

theorem optionalWord_yields {text : String} : Yields whole (optionalWord text) fun _ => True := by
  unfold optionalWord
  refine nextWord_yields.andThen fun _ => .ite ?_ (.pure trivial)
  exact keyword_yields.andThen fun _ => .pure trivial

/-! ## Repetitions -/

theorem whileNext_yields {condition : Token → Bool} (one : Yields whole parser post) (limit : Nat) :
    Yields whole (whileNext condition parser limit) fun found => ∀ item ∈ found, post item := by
  induction limit with
  | zero => exact .pure (by simp)
  | succ limit ih =>
      rw [whileNext]
      refine nextIs_yields.andThen fun _ => .ite ?_ (.pure (by simp))
      refine one.bind fun first holds => ih.bind fun rest later => .pure ?_
      simpa using ⟨holds, later⟩

theorem untilNext_yields {condition : Token → Bool} (one : Yields whole parser post) (limit : Nat) :
    Yields whole (untilNext condition parser limit) fun found => ∀ item ∈ found, post item := by
  induction limit with
  | zero => exact .fail
  | succ limit ih =>
      rw [untilNext]
      refine nextIs_yields.andThen fun _ => .ite (.pure (by simp)) ?_
      refine one.bind fun first holds => ih.bind fun rest later => .pure ?_
      simpa using ⟨holds, later⟩

theorem separated_yields {sign : String} (one : Yields whole parser post) (limit : Nat) :
    Yields whole (separated sign limit parser) fun found => ∀ item ∈ found, post item := by
  unfold separated
  refine one.bind fun first holds => ?_
  refine (whileNext_yields (symbol_yields.andThen fun _ => one) limit).bind fun rest later => .pure ?_
  simpa using ⟨holds, later⟩

theorem listUntil_yields {close : String} (one : Yields whole parser post) (limit : Nat) :
    Yields whole (listUntil close limit parser) fun found => ∀ item ∈ found, post item := by
  unfold listUntil
  refine optionalSymbol_yields.andThen fun _ => .ite (.pure (by simp)) ?_
  exact (separated_yields one limit).bind fun items all => symbol_yields.andThen fun _ => .pure all

end Parser

end CallContext.Java
