import CallContext.Text.Word
import Mathlib.Data.List.Infix

/-!
Patterns of texts. At a place of a text a pattern matches in several ways, which have an order: a repetition
tries to take as much or as little as it can, and the earlier of two parts decides before the later. Of a
text the leftmost place with a match counts, and there the first way.
-/

namespace CallContext.Text

inductive Pattern where
  | one (allowed : Char → Bool)
  /-- Any number of the allowed characters: as few as possible, or else as many. -/
  | many (lazily : Bool) (allowed : Char → Bool)
  | oneOf (texts : List (List Char))
  /-- A place between a word character and another character or an end of the text. -/
  | edge
  | group (number : Nat) (inner : Pattern)
  | andThen (first second : Pattern)

structure Way where
  taken : List Char
  groups : List (Nat × List Char)
  deriving DecidableEq

def Way.group? (way : Way) (number : Nat) : Option (List Char) :=
  way.groups.lookup number

def Way.last (way : Way) (previous : Option Char) : Option Char :=
  way.taken.getLast?.or previous

def Way.andThen (first second : Way) : Way :=
  ⟨first.taken ++ second.taken, first.groups ++ second.groups⟩

def isEdge (previous : Option Char) (text : List Char) : Bool :=
  previous.any isWordPart != text.head?.any isWordPart

theorem isEdge_of_head {previous : Option Char} {text : List Char}
    (word : text.head?.any isWordPart) : isEdge previous text = !previous.any isWordPart := by
  rw [isEdge, word]
  cases previous.any isWordPart <;> rfl

theorem isEdge_of_previous {previous : Option Char} {text : List Char}
    (word : previous.any isWordPart) : isEdge previous text = !text.head?.any isWordPart := by
  rw [isEdge, word]
  cases text.head?.any isWordPart <;> rfl

namespace Pattern

/-- The ways in which a pattern matches at the beginning of a text, in the order in which they are tried.
The character before the text counts for edges. -/
def ways : Pattern → Option Char → List Char → List Way
  | one _, _, [] => []
  | one allowed, _, c :: _ => if allowed c then [⟨[c], []⟩] else []
  | many lazily allowed, _, text =>
    let runs := (text.takeWhile allowed).inits
    (if lazily then runs else runs.reverse).map (⟨·, []⟩)
  | oneOf texts, _, text => (texts.filter (·.isPrefixOf text)).map (⟨·, []⟩)
  | edge, previous, text => if isEdge previous text then [⟨[], []⟩] else []
  | group number inner, previous, text =>
    (inner.ways previous text).map fun way => ⟨way.taken, (number, way.taken) :: way.groups⟩
  | andThen first second, previous, text =>
    (first.ways previous text).flatMap fun way =>
      (second.ways (way.last previous) (text.drop way.taken.length)).map way.andThen

def firstWay (pattern : Pattern) (previous : Option Char) : List Char → Option Way
  | [] => (pattern.ways previous []).head?
  | c :: rest => (pattern.ways previous (c :: rest)).head?.or (pattern.firstWay (some c) rest)

variable {previous : Option Char} {text : List Char} {way : Way}

theorem mem_ways_one {allowed : Char → Bool} :
    way ∈ (one allowed).ways previous text ↔
      ∃ c rest, text = c :: rest ∧ allowed c ∧ way = ⟨[c], []⟩ := by
  cases text <;> simp [ways]

theorem isPrefix_takeWhile_iff {allowed : Char → Bool} {run : List Char} :
    run <+: text.takeWhile allowed ↔ run <+: text ∧ ∀ c ∈ run, allowed c := by
  induction text generalizing run with
  | nil => simp +contextual
  | cons c rest ih =>
      cases run with
      | nil => simp
      | cons d run =>
          by_cases member : allowed c
          · rw [List.takeWhile_cons_of_pos member, List.cons_prefix_cons, ih, List.cons_prefix_cons,
              List.forall_mem_cons]
            constructor
            · rintro ⟨rfl, inside, all⟩
              exact ⟨⟨rfl, inside⟩, member, all⟩
            · rintro ⟨⟨same, inside⟩, -, all⟩
              exact ⟨same, inside, all⟩
          · rw [List.takeWhile_cons_of_neg member, List.cons_prefix_cons, List.forall_mem_cons]
            simp only [List.prefix_nil, reduceCtorEq, false_iff]
            rintro ⟨⟨rfl, -⟩, allowed, -⟩
            exact member allowed

theorem mem_ways_many {lazily : Bool} {allowed : Char → Bool} :
    way ∈ (many lazily allowed).ways previous text ↔
      ∃ run rest, text = run ++ rest ∧ (∀ c ∈ run, allowed c) ∧ way = ⟨run, []⟩ := by
  have listed : way ∈ (many lazily allowed).ways previous text ↔
      ∃ run, run <+: text.takeWhile allowed ∧ ⟨run, []⟩ = way := by
    cases lazily <;> simp [ways]
  rw [listed]
  constructor
  · rintro ⟨run, inside, rfl⟩
    obtain ⟨⟨rest, rfl⟩, all⟩ := isPrefix_takeWhile_iff.mp inside
    exact ⟨run, rest, rfl, all, rfl⟩
  · rintro ⟨run, rest, rfl, all, rfl⟩
    exact ⟨run, isPrefix_takeWhile_iff.mpr ⟨List.prefix_append run rest, all⟩, rfl⟩

theorem mem_ways_oneOf {texts : List (List Char)} :
    way ∈ (oneOf texts).ways previous text ↔
      ∃ word ∈ texts, ∃ rest, text = word ++ rest ∧ way = ⟨word, []⟩ := by
  simp only [ways, List.mem_map, List.mem_filter, List.isPrefixOf_iff_prefix]
  constructor
  · rintro ⟨word, ⟨listed, rest, rfl⟩, rfl⟩
    exact ⟨word, listed, rest, rfl, rfl⟩
  · rintro ⟨word, listed, rest, rfl, rfl⟩
    exact ⟨word, ⟨listed, List.prefix_append word rest⟩, rfl⟩

theorem mem_ways_edge : way ∈ edge.ways previous text ↔ isEdge previous text ∧ way = ⟨[], []⟩ := by
  simp [ways]

theorem mem_ways_group {number : Nat} {inner : Pattern} :
    way ∈ (group number inner).ways previous text ↔
      ∃ found ∈ inner.ways previous text, way = ⟨found.taken, (number, found.taken) :: found.groups⟩ := by
  simp [ways, eq_comm]

theorem isPrefix_taken {pattern : Pattern} (member : way ∈ pattern.ways previous text) :
    way.taken <+: text := by
  induction pattern generalizing previous text way with
  | one allowed =>
      obtain ⟨c, rest, rfl, -, rfl⟩ := mem_ways_one.mp member
      exact List.prefix_append [c] rest
  | many lazily allowed =>
      obtain ⟨run, rest, rfl, -, rfl⟩ := mem_ways_many.mp member
      exact List.prefix_append run rest
  | oneOf texts =>
      obtain ⟨word, -, rest, rfl, rfl⟩ := mem_ways_oneOf.mp member
      exact List.prefix_append word rest
  | edge =>
      obtain ⟨-, rfl⟩ := mem_ways_edge.mp member
      exact List.nil_prefix
  | group number inner ih =>
      obtain ⟨found, among, rfl⟩ := mem_ways_group.mp member
      exact @ih previous text found among
  | andThen first second ihFirst ihSecond =>
      obtain ⟨front, among, later⟩ := List.mem_flatMap.mp member
      obtain ⟨back, follows, rfl⟩ := List.mem_map.mp later
      obtain ⟨rest, rfl⟩ := ihFirst among
      rw [List.drop_left] at follows
      exact (List.prefix_append_right_inj front.taken).mpr (ihSecond follows)

theorem mem_ways_andThen {first second : Pattern} :
    way ∈ (andThen first second).ways previous text ↔
      ∃ front rest, text = front.taken ++ rest ∧ front ∈ first.ways previous text ∧
        ∃ back ∈ second.ways (front.last previous) rest, way = front.andThen back := by
  rw [ways, List.mem_flatMap]
  constructor
  · rintro ⟨front, among, later⟩
    obtain ⟨back, follows, rfl⟩ := List.mem_map.mp later
    obtain ⟨rest, split⟩ := isPrefix_taken among
    rw [← split, List.drop_left] at follows
    exact ⟨front, rest, split.symm, among, back, follows, rfl⟩
  · rintro ⟨front, rest, split, among, back, follows, rfl⟩
    refine ⟨front, among, List.mem_map.mpr ⟨back, ?_, rfl⟩⟩
    rwa [split, List.drop_left]

end Pattern

end CallContext.Text
