/-!
Outlines: labels with outlines below them, drawn as trees with lines from each label to those below.
-/

namespace CallContext

inductive Outline where
  | mk (label : String) (children : List Outline)
  deriving Inhabited, Repr

namespace Outline

mutual

def drawAfter (margin : String) : Outline → String
  | ⟨label, children⟩ => label ++ "\n" ++ drawAll margin children

/-- The lines of the outlines below one label. The last of them ends the line that runs down. -/
def drawAll (margin : String) : List Outline → String
  | [] => ""
  | [child] => margin ++ "└─ " ++ child.drawAfter (margin ++ "   ")
  | child :: rest => margin ++ "├─ " ++ child.drawAfter (margin ++ "│  ") ++ drawAll margin rest

end

def draw (outline : Outline) : String :=
  outline.drawAfter ""

end Outline

end CallContext
