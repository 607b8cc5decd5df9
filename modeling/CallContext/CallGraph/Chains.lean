import CallContext.CallGraph.Queue

namespace CallContext

inductive ChainStyle where
  | pair
  | path
  deriving DecidableEq, Inhabited, Repr

namespace ChainStyle

def shown {α : Type} : ChainStyle → List α → List α
  | .pair, way => way.head?.toList ++ way.getLast?.toList
  | .path, way => way

def render (style : ChainStyle) (way : List MethodId) : String :=
  Text.joinWith " -> " ((style.shown way).map (·.displayName))

end ChainStyle

namespace CallGraph

/-- The methods that a search has seen, later ones first, each with the method from which it was found.
Only the start of the search has none. -/
abbrev Parents : Type :=
  List (MethodId × Option MethodId)

namespace Parents

def seen (parents : Parents) : List MethodId :=
  parents.map (·.1)

def found (parents : Parents) (id : MethodId) (ids : List MethodId) : Parents :=
  ids.map (·, some id) ++ parents

def wayBack : Parents → MethodId → List MethodId
  | [], id => [id]
  | (next, parent) :: earlier, id =>
    if next = id then
      match parent with
      | some before => id :: wayBack earlier before
      | none => [id]
    else wayBack earlier id

theorem seen_found (parents : Parents) (id : MethodId) (ids : List MethodId) :
    (parents.found id ids).seen = ids ++ parents.seen := by
  simp [seen, found, Function.comp_def]

end Parents

/-- The ways to wanted methods that a search within a limit finds that has seen some methods and has
others waiting. -/
def waysFrom (graph : CallGraph) (direction : Direction) (limit : Nat) (wanted : List MethodId)
    (parents : Parents) : List (MethodId × Nat) → List (List MethodId)
  | [] => []
  | (id, depth) :: waiting =>
    if limit ≤ depth then graph.waysFrom direction limit wanted parents waiting
    else
      let found := Search.unseen parents.seen (graph.neighbours direction id)
      let parents' := parents.found id found
      ((found.filter wanted.contains).map fun next => (parents'.wayBack next).reverse) ++
        graph.waysFrom direction limit wanted parents' (waiting ++ found.map (·, depth + 1))
termination_by waiting => graph.ahead parents.seen waiting
decreasing_by
  · exact graph.ahead_skip _ _ waiting
  · rw [Parents.seen_found]
    exact graph.ahead_visit _ direction id depth waiting

def waysIn (graph : CallGraph) (wanted : List MethodId) (limit : Nat) (direction : Direction)
    (seed : MethodId) : List (List MethodId) :=
  if limit = 0 then [] else graph.waysFrom direction limit wanted [(seed, none)] [(seed, 0)]

/-- The ways from a seed down to the given methods, then those from them down to the seed. -/
def waysOf (graph : CallGraph) (wanted : List MethodId) (up down : Nat) (seed : MethodId) :
    List (List MethodId) :=
  graph.waysIn wanted down .forward seed ++
    (graph.waysIn wanted up .backward seed).map List.reverse

def chains (graph : CallGraph) (seeds wanted : List MethodId) (up down : Nat) (style : ChainStyle)
    (cap : Nat) : List String :=
  (((seeds.flatMap (graph.waysOf wanted up down)).map style.render).eraseDups).take cap

end CallGraph

end CallContext
