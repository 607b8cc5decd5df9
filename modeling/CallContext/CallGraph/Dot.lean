import CallContext.CallGraph

/-!
Call graphs in the DOT language: the methods are numbered from zero and labelled with their keys.
-/

namespace CallContext.CallGraph

namespace Dot

/-- A character inside a label. A new line becomes the mark for one that ends a left-aligned line. -/
def escape (c : Char) : List Char :=
  if c = '"' || c = '\\' then ['\\', c]
  else if c = '\n' then ['\\', 'l']
  else [c]

def label (text : String) : String :=
  String.ofList (text.toList.flatMap escape)

def nodeLine (number : Nat) (id : MethodId) : String :=
  "    " ++ toString number ++ " [ label = \"" ++ label id.key ++ "\" ]\n"

def edgeLine (caller callee : Nat) : String :=
  "    " ++ toString caller ++ " -> " ++ toString callee ++ " [ ]\n"

end Dot

def dot (graph : CallGraph) : String :=
  let nodes := graph.nodes
  "digraph \x7b\n" ++ String.join (nodes.mapIdx Dot.nodeLine) ++
    String.join (graph.edges.map fun (caller, callee) =>
      Dot.edgeLine (nodes.idxOf caller) (nodes.idxOf callee)) ++ "\x7d\n"

end CallContext.CallGraph
