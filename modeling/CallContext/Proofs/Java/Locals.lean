import CallContext.Proofs.Java.SourceFile

/-!
The variables that reading a method body records. A local variable is recorded if its type can be read
off its declaration, wherever in the body that stands; a loop variable or resource if its type is
written, and the parameter of a catch clause if it has one type.
-/

namespace CallContext.Java

/-- Whether a declaration shows the type of its variable: a type is written, or the initial value is the
creation of an object or a cast. -/
def IsEvident (type : String) (value : List Code) : Prop :=
  type ≠ inferredMark ∨ ∃ written, value.head?.bind Code.evidentType = some written

def Code.Shows (name : String) : Code → Prop
  | .locals _ type declarators =>
    ∃ dimensions value, .declarator name dimensions value ∈ declarators ∧ IsEvident type value
  | .binding _ id type => id = name ∧ type ≠ inferredMark
  | .caught _ id types => id = name ∧ types.length = 1
  | _ => False

mutual

def Code.pieces : Code → List Code
  | .call object typeArguments method arguments line =>
    .call object typeArguments method arguments line ::
      (object.pieces ++ piecesOf typeArguments ++ piecesOf arguments)
  | .field object member => .field object member :: object.pieces
  | .creation type parts => .creation type parts :: piecesOf parts
  | .cast type parts => .cast type parts :: piecesOf parts
  | .parenthesized inner => .parenthesized inner :: inner.pieces
  | .locals parts type declarators =>
    .locals parts type declarators :: (piecesOf parts ++ piecesOf declarators)
  | .declarator id dimensions value =>
    .declarator id dimensions value :: (piecesOf dimensions ++ piecesOf value)
  | .binding parts id type => .binding parts id type :: piecesOf parts
  | .caught parts id types => .caught parts id types :: piecesOf parts
  | .other parts => .other parts :: piecesOf parts
  | .implicit => [.implicit]
  | .this => [.this]
  | .super => [.super]
  | .name id => [.name id]

def Code.piecesOf : List Code → List Code
  | [] => []
  | first :: rest => first.pieces ++ piecesOf rest

end

def Code.DeclaresLocal (body : Code) (name type : String) (value : List Code) : Prop :=
  ∃ parts declarators dimensions, .locals parts type declarators ∈ body.pieces ∧
    .declarator name dimensions value ∈ declarators

def ShowsIn (name : String) (pieces : List Code) : Prop :=
  ∃ piece ∈ pieces, piece.Shows name

def MethodSyntax.Shows (declaration : MethodSyntax) (name : String) : Prop :=
  (∃ parameter ∈ declaration.parameters, parameter.name = name) ∨
    ∃ body ∈ declaration.body, ShowsIn name body.pieces

theorem MethodSyntax.shows_of_declaresLocal {declaration : MethodSyntax} {body : Code}
    (whole : declaration.body = some body) {name type : String} {value : List Code}
    (declared : body.DeclaresLocal name type value) (evident : IsEvident type value) :
    declaration.Shows name := by
  obtain ⟨parts, declarators, dimensions, inBody, listed⟩ := declared
  exact .inr ⟨body, whole, _, inBody, dimensions, value, listed, evident⟩

theorem showsIn_cons (name : String) (piece : Code) (rest : List Code) :
    ShowsIn name (piece :: rest) ↔ piece.Shows name ∨ ShowsIn name rest := by
  simp only [ShowsIn, List.exists_mem_cons_iff]

theorem showsIn_append (name : String) (before after : List Code) :
    ShowsIn name (before ++ after) ↔ ShowsIn name before ∨ ShowsIn name after := by
  simp only [ShowsIn, List.mem_append, or_and_right, exists_or]

def Records (name : String) (events : List Event) : Prop :=
  ∃ type, .variable name type ∈ events

theorem records_append (name : String) (before after : List Event) :
    Records name (before ++ after) ↔ Records name before ∨ Records name after := by
  simp only [Records, List.mem_append, exists_or]

theorem records_variableEvent (name type : String) (code : Code) :
    Records name (code.variableEvent type) ↔
      ∃ dimensions value, code = .declarator name dimensions value ∧ IsEvident type value := by
  cases code with
  | declarator id dimensions value =>
      simp only [Records, Code.variableEvent, List.mem_map, Option.mem_toList, Event.variable.injEq,
        Code.declarator.injEq, IsEvident]
      by_cases inferred : type = inferredMark
      · simp only [inferred, if_true, ne_eq, not_true_eq_false, false_or]
        constructor
        · rintro ⟨-, written, shown, rfl, rfl⟩
          exact ⟨dimensions, value, ⟨rfl, rfl, rfl⟩, written, shown⟩
        · rintro ⟨_, _, ⟨rfl, rfl, rfl⟩, written, shown⟩
          exact ⟨_, written, shown, rfl, rfl⟩
      · simp [inferred]
  | _ => simp [Records, Code.variableEvent]

theorem records_flatMap_variableEvent (name type : String) (declarators : List Code) :
    Records name (declarators.flatMap (Code.variableEvent type)) ↔
      ∃ dimensions value, .declarator name dimensions value ∈ declarators ∧ IsEvident type value := by
  have each : Records name (declarators.flatMap (Code.variableEvent type)) ↔
      ∃ code ∈ declarators, Records name (code.variableEvent type) := by
    simp only [Records, List.mem_flatMap]
    constructor
    · rintro ⟨written, code, listed, shown⟩
      exact ⟨code, listed, written, shown⟩
    · rintro ⟨code, listed, written, shown⟩
      exact ⟨written, code, listed, shown⟩
  simp only [each, records_variableEvent]
  constructor
  · rintro ⟨_, listed, dimensions, value, rfl, evident⟩
    exact ⟨dimensions, value, listed, evident⟩
  · rintro ⟨dimensions, value, listed, evident⟩
    exact ⟨_, listed, dimensions, value, rfl, evident⟩

mutual

theorem records_events_iff (name : String) (code : Code) :
    Records name code.events ↔ ShowsIn name code.pieces := by
  cases code with
  | call object typeArguments method arguments line =>
      have last : ¬ Records name
          [.call ⟨Receiver.ofCode object, method, arguments.length, line⟩] := by simp [Records]
      simp only [Code.events, Code.pieces, records_append, records_events_iff name object,
        records_eventsOf_iff name typeArguments, records_eventsOf_iff name arguments, last,
        showsIn_cons, showsIn_append, Code.Shows, or_false, false_or]
  | field object member =>
      simp only [Code.events, Code.pieces, records_events_iff name object, showsIn_cons, Code.Shows,
        false_or]
  | parenthesized inner =>
      simp only [Code.events, Code.pieces, records_events_iff name inner, showsIn_cons, Code.Shows,
        false_or]
  | creation type parts | cast type parts | other parts =>
      simp only [Code.events, Code.pieces, records_eventsOf_iff name parts, showsIn_cons, Code.Shows,
        false_or]
  | locals parts type declarators =>
      simp only [Code.events, Code.pieces, records_append, records_flatMap_variableEvent,
        records_eventsOf_iff name parts, records_eventsOf_iff name declarators, showsIn_cons,
        showsIn_append, Code.Shows]
      -- A variable is recorded after what its declaration contains; as a piece it comes before.
      exact or_comm
  | declarator id dimensions value =>
      simp only [Code.events, Code.pieces, records_append, records_eventsOf_iff name dimensions,
        records_eventsOf_iff name value, showsIn_cons, showsIn_append, Code.Shows, false_or]
  | binding parts id type =>
      have own : Records name
          (if type = inferredMark then [] else [.variable id (TypeText.erase type)]) ↔
            id = name ∧ type ≠ inferredMark := by
        by_cases inferred : type = inferredMark <;> simp [Records, inferred, eq_comm]
      simp only [Code.events, Code.pieces, records_append, own, records_eventsOf_iff name parts,
        showsIn_cons, Code.Shows]
      exact or_comm
  | caught parts id types =>
      simp only [Code.events, Code.pieces, records_append, records_eventsOf_iff name parts,
        showsIn_cons, Code.Shows]
      rw [or_comm]
      refine or_congr_left ?_
      match types with
      | [] | [_] | _ :: _ :: _ => simp [Records, eq_comm]
  | implicit | this | super | name _ =>
      simp [Code.events, Code.pieces, ShowsIn, Code.Shows, Records]

theorem records_eventsOf_iff (name : String) (codes : List Code) :
    Records name (Code.eventsOf codes) ↔ ShowsIn name (Code.piecesOf codes) := by
  cases codes with
  | nil => simp [Code.eventsOf, Code.piecesOf, ShowsIn, Records]
  | cons first rest =>
      simp only [Code.eventsOf, Code.piecesOf, records_append, records_events_iff name first,
        records_eventsOf_iff name rest, showsIn_append]

end

namespace MethodSyntax

theorem isSome_local_iff_records (declaration : MethodSyntax) (name : String) :
    (declaration.toMethod.locals.get? name).isSome ↔ Records name declaration.events := by
  have locals : declaration.toMethod.locals =
      Table.ofList (declaration.events.filterMap Event.variable?) := rfl
  rw [locals, Table.get?_ofList, Option.isSome_map, List.find?_isSome]
  simp only [List.mem_filterMap, decide_eq_true_eq]
  constructor
  · rintro ⟨⟨_, type⟩, ⟨event, read, kind⟩, rfl⟩
    cases event with
    | call site => cases kind
    | «variable» id written =>
        cases kind
        exact ⟨_, read⟩
  · rintro ⟨type, read⟩
    exact ⟨(name, type), ⟨_, read, rfl⟩, rfl⟩

theorem isSome_local_iff (declaration : MethodSyntax) (name : String) :
    (declaration.toMethod.locals.get? name).isSome ↔
      ∃ body ∈ declaration.body, ShowsIn name body.pieces := by
  rw [isSome_local_iff_records, events]
  cases declaration.body with
  | none => simp [Records]
  | some body => simp [records_events_iff]

end MethodSyntax

end CallContext.Java
