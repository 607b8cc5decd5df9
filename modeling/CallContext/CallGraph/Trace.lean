import CallContext.CallGraph.Queue
import CallContext.Text.Outline

namespace CallContext

structure Hop where
  method : MethodId
  depth : Nat
  /-- The method that leads to it: a hop one less deep, or the traced method. -/
  via : MethodId
  location : Option Location
  deriving DecidableEq, Repr

structure Trace where
  target : MethodId
  location : Option Location
  callers : List Hop
  callees : List Hop
  deriving DecidableEq, Repr

namespace CallGraph

/-- The hops that a search within a limit finds that has seen some methods and has others waiting. -/
def hopsFrom (graph : CallGraph) (direction : Direction) (limit : Nat) (seen : List MethodId) :
    List (MethodId × Nat) → List Hop
  | [] => []
  | (id, depth) :: waiting =>
    if limit ≤ depth then graph.hopsFrom direction limit seen waiting
    else
      let found := Search.unseen seen (graph.neighbours direction id)
      (found.map fun next => ⟨next, depth + 1, id, graph.location next⟩) ++
        graph.hopsFrom direction limit (found ++ seen) (waiting ++ found.map (·, depth + 1))
termination_by waiting => graph.ahead seen waiting
decreasing_by
  · exact graph.ahead_skip seen _ waiting
  · exact graph.ahead_visit seen direction id depth waiting

def hops (graph : CallGraph) (target : MethodId) (limit : Nat) (direction : Direction) : List Hop :=
  graph.hopsFrom direction limit [target] [(target, 0)]

def trace (graph : CallGraph) (target : MethodId) (up down : Nat) : Trace where
  target := target
  location := graph.location target
  callers := graph.hops target up .backward
  callees := graph.hops target down .forward

end CallGraph

namespace Trace

def green (text : String) : String :=
  "\x1b[32m" ++ text ++ "\x1b[39m"

def faint (text : String) : String :=
  "\x1b[2m" ++ text ++ "\x1b[0m"

def place : Option Location → String
  | some location => location.path ++ ":" ++ toString location.line
  | none => "external"

def label (color : Bool) (id : MethodId) (location : Option Location) : String :=
  if color then green id.displayName ++ " " ++ faint (place location)
  else id.displayName ++ " " ++ place location

def branches (color : Bool) (hops : List Hop) : Nat → MethodId → List Outline
  | 0, _ => []
  | depth + 1, parent =>
    (hops.filter (·.via = parent)).map fun hop =>
      ⟨label color hop.method hop.location, branches color hops depth hop.method⟩

def sideOutline (color : Bool) (target : MethodId) (title : String) (hops : List Hop) : Outline :=
  ⟨title ++ " (" ++ toString hops.length ++ ")", branches color hops hops.length target⟩

/-- The outline of a trace. A hop is at most as deep as there are hops. -/
def outline (trace : Trace) (color : Bool) : Outline :=
  ⟨label color trace.target trace.location,
    [sideOutline color trace.target "callers" trace.callers,
      sideOutline color trace.target "callees" trace.callees]⟩

def render (trace : Trace) (color : Bool) : String :=
  (trace.outline color).draw

end Trace

end CallContext
