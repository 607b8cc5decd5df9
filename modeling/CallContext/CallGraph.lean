import CallContext.CallGraph.Adjacency

/-!
Call graphs: the methods that are declared, each with the place of its first declaration, and the
calls between methods. Everything is listed in the order in which it first came up. A call may have
ends that are declared nowhere.
-/

namespace CallContext

structure CallGraph where
  locations : Table MethodId Location
  forward : Adjacency
  backward : Adjacency
  mirror : ∀ caller callee, callee ∈ forward.of caller ↔ caller ∈ backward.of callee

inductive Direction where
  | forward
  | backward
  deriving DecidableEq, Inhabited, Repr

namespace CallGraph

def empty : CallGraph :=
  ⟨Table.empty, Adjacency.empty, Adjacency.empty,
    fun _ _ => iff_of_false List.not_mem_nil List.not_mem_nil⟩

instance : Inhabited CallGraph := ⟨empty⟩

def register (graph : CallGraph) (id : MethodId) (location : Location) : CallGraph :=
  { graph with locations := graph.locations.insertNew id location }

def addCall (graph : CallGraph) (caller callee : MethodId) : CallGraph :=
  { graph with
    forward := graph.forward.link caller callee
    backward := graph.backward.link callee caller
    mirror := by
      intro before after
      rw [Adjacency.mem_of_link, Adjacency.mem_of_link, graph.mirror]
      exact or_congr_right and_comm }

def callees (graph : CallGraph) (id : MethodId) : List MethodId :=
  graph.forward.of id

def callers (graph : CallGraph) (id : MethodId) : List MethodId :=
  graph.backward.of id

def neighbours (graph : CallGraph) : Direction → MethodId → List MethodId
  | .forward => graph.callees
  | .backward => graph.callers

def location (graph : CallGraph) (id : MethodId) : Option Location :=
  graph.locations.get? id

def sources (graph : CallGraph) : List MethodId :=
  graph.forward.ids

def targets (graph : CallGraph) : List MethodId :=
  graph.backward.ids

def isNew (graph : CallGraph) (id : MethodId) : Bool :=
  (graph.location id).isNone

/-- All methods: the declared ones, then the others that call, then the others that are called. -/
def nodes (graph : CallGraph) : List MethodId :=
  (graph.locations.keys ++ graph.sources ++ graph.targets).eraseDups

def edges (graph : CallGraph) : List (MethodId × MethodId) :=
  graph.forward.pairs

def methodCount (graph : CallGraph) : Nat :=
  graph.locations.size

def edgeCount (graph : CallGraph) : Nat :=
  graph.forward.size

def isEmpty (graph : CallGraph) : Bool :=
  graph.locations.isEmpty && graph.forward.isEmpty

def fanOuts (graph : CallGraph) : List (MethodId × Nat) :=
  graph.forward.degrees

def fanIns (graph : CallGraph) : List (MethodId × Nat) :=
  graph.backward.degrees

end CallGraph

end CallContext
