import CallContext.CallGraph.Queue

namespace CallContext.CallGraph

/-- The methods that a search within a limit finds that has seen some methods and has others waiting. -/
def relatedFrom (graph : CallGraph) (direction : Direction) (limit : Nat) (seen : List MethodId) :
    List (MethodId × Nat) → List MethodId
  | [] => []
  | (id, depth) :: waiting =>
    -- At the limit a method has been found, but is not followed.
    if limit ≤ depth then graph.relatedFrom direction limit seen waiting
    else
      let found := Search.unseen seen (graph.neighbours direction id)
      found ++ graph.relatedFrom direction limit (found ++ seen)
        (waiting ++ found.map (·, depth + 1))
termination_by waiting => graph.ahead seen waiting
decreasing_by
  · exact graph.ahead_skip seen _ waiting
  · exact graph.ahead_visit seen direction id depth waiting

def relatedIn (graph : CallGraph) (seeds : List MethodId) (limit : Nat) (direction : Direction) :
    List MethodId :=
  if limit = 0 then [] else graph.relatedFrom direction limit seeds (seeds.map (·, 0))

/-- The methods at most `down` calls below a seed, then the others at most `up` calls above one. Seeds
are not among them. -/
def related (graph : CallGraph) (seeds : List MethodId) (up down : Nat) : List MethodId :=
  if seeds.isEmpty then []
  else
    (graph.relatedIn seeds down .forward ++ graph.relatedIn seeds up .backward).eraseDups.filter
      (· ∉ seeds)

end CallContext.CallGraph
