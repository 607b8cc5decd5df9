/-!
Breadth-first search. Places are found level by level: those one step from the starts, those two steps
away, and so on. Within a level they come in the order in which the level before leads to them, and
each is found once, along a trail of the fewest steps.
-/

namespace CallContext.Search

/-- A trail from a start: the place that it leads to and the places before that, last first. -/
structure Trail (α : Type) where
  last : α
  before : List α
  deriving DecidableEq, Inhabited, Repr

namespace Trail

variable {α : Type}

def length (trail : Trail α) : Nat :=
  trail.before.length

def places (trail : Trail α) : List α :=
  (trail.last :: trail.before).reverse

def step (trail : Trail α) (place : α) : Trail α :=
  ⟨place, trail.last :: trail.before⟩

end Trail

variable {α : Type} [DecidableEq α]

def unseen (seen places : List α) : List α :=
  (places.filter (· ∉ seen)).eraseDups

def fresh (seen : List α) : List (Trail α) → List (Trail α)
  | [] => []
  | trail :: rest =>
    if trail.last ∈ seen then fresh seen rest
    else trail :: fresh (trail.last :: seen) rest

def nextLevel (neighbours : α → List α) (seen : List α) (level : List (Trail α)) :
    List (Trail α) :=
  fresh seen (level.flatMap fun trail => (neighbours trail.last).map trail.step)

def levels (neighbours : α → List α) : Nat → List α → List (Trail α) → List (Trail α)
  | 0, _, _ => []
  | limit + 1, seen, level =>
    let found := nextLevel neighbours seen level
    if found.isEmpty then []
    else found ++ levels neighbours limit (found.map (·.last) ++ seen) found

/-- The trails to all places other than the starts that are at most so many steps away. -/
def trails (neighbours : α → List α) (limit : Nat) (starts : List α) : List (Trail α) :=
  levels neighbours limit starts (starts.map fun start => ⟨start, []⟩)

def reached (neighbours : α → List α) (limit : Nat) (starts : List α) : List α :=
  (trails neighbours limit starts).map (·.last)

end CallContext.Search
