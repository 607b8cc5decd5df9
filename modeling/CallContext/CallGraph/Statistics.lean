import CallContext.CallGraph
import CallContext.Search
import CallContext.Text.Grid

/-!
Summary numbers of a call graph. They depend on what the graph holds and not on the order in which it
came to hold it: ties between methods are ordered by their identities.
-/

namespace CallContext

structure Statistics where
  methods : Nat
  edges : Nat
  types : Nat
  callers : Nat
  callees : Nat
  external : Nat
  /-- The groups of methods that call themselves, directly or through each other. -/
  recursiveGroups : Nat
  mostCalled : List (MethodId × Nat)
  mostCalling : List (MethodId × Nat)
  deriving DecidableEq, Repr

namespace Statistics

/-- Whether the first method is listed no later than the second: the larger number comes first, of
equal numbers the smaller identity. -/
def ranksBefore (a b : MethodId × Nat) : Bool :=
  b.2 < a.2 || (a.2 == b.2 && (MethodId.compare a.1 b.1).isLE)

def leading (counts : List (MethodId × Nat)) (top : Nat) : List (MethodId × Nat) :=
  (counts.mergeSort ranksBefore).take top

end Statistics

namespace CallGraph

def below (graph : CallGraph) (id : MethodId) : List MethodId :=
  let direct := graph.callees id
  direct ++ Search.reached graph.callees graph.nodes.length direct

def eachOther (a b : MethodId × List MethodId) : Bool :=
  a.2.contains b.1 && b.2.contains a.1

/-- The given methods together with one method of each other group of methods that lead to each other
and to themselves. Each method comes with those below it. -/
def groupHeads (heads : List (MethodId × List MethodId)) :
    List (MethodId × List MethodId) → List (MethodId × List MethodId)
  | [] => heads
  | method :: rest =>
    -- The methods of one group lead to each other, so the first of them stands for it.
    if eachOther method method && !heads.any (eachOther method) then groupHeads (method :: heads) rest
    else groupHeads heads rest

def recursiveGroups (graph : CallGraph) : Nat :=
  (groupHeads [] (graph.nodes.map fun id => (id, graph.below id))).length

def statistics (graph : CallGraph) (top : Nat) : Statistics where
  methods := graph.methodCount
  edges := graph.edgeCount
  types := ((graph.locations.keys.map (·.owner)).eraseDups).length
  callers := graph.fanOuts.length
  callees := graph.fanIns.length
  external := (graph.nodes.filter fun id => (graph.location id).isNone).length
  recursiveGroups := graph.recursiveGroups
  mostCalled := Statistics.leading graph.fanIns top
  mostCalling := Statistics.leading graph.fanOuts top

end CallGraph

namespace Statistics

def summaryRows (summary : Statistics) : List (List String) :=
  [["metric", "value"],
    ["methods", toString summary.methods],
    ["types", toString summary.types],
    ["callers", toString summary.callers],
    ["callees", toString summary.callees],
    ["call edges", toString summary.edges],
    ["external methods", toString summary.external],
    ["recursive groups", toString summary.recursiveGroups]]

def ranking (title : String) : List (MethodId × Nat) → String
  | [] => ""
  | ranked => "\n\n" ++ title ++ "\n" ++ Text.Grid.draw (["method", "calls"] ::
      ranked.map fun (id, calls) => [id.key, toString calls])

def render (summary : Statistics) : String :=
  Text.Grid.draw summary.summaryRows ++ ranking "Most called" summary.mostCalled ++
    ranking "Most calling" summary.mostCalling ++ "\n"

end Statistics

end CallContext
