import CallContext.CallGraph
import CallContext.Text.Blank

namespace CallContext

namespace MethodId

def ownedBy (id : MethodId) (type : String) : Bool :=
  id.owner == type || (Name.qualifier? id.owner type).isSome

/-- Whether an identity is meant by a parsed key; a key without parameters means all overloads. -/
def meantBy (id wanted : MethodId) : Bool :=
  id.owner == wanted.owner && id.name == wanted.name &&
    (wanted.parameters.isNone || id.parameters == wanted.parameters)

def answers (id : MethodId) (query : String) : Bool :=
  if query.toList.contains '#' then (parseKey query).any id.meantBy
  else match Name.splitLast query with
    | some (type, name) => id.name == name && id.ownedBy type
    | none => id.name == query

end MethodId

namespace CallGraph

def find (graph : CallGraph) (query : String) : List MethodId :=
  graph.nodes.filter (·.answers (Text.trimmed query))

end CallGraph

end CallContext
