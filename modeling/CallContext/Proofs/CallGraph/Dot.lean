import CallContext.CallGraph.Dot
import CallContext.Proofs.CallGraph.History
import CallContext.Proofs.Text.Lines

/-!
Reading a call graph back from its text in the DOT language. The text shows the keys of the methods in
order, and the calls as pairs of positions in that order. Nothing of this is lost, whatever the names in
the graph are: labels are free text, but no character of a label ends it or the line that it is on.
-/

namespace CallContext.CallGraph

namespace Dot

open Text

def unescape : List Char → List Char
  | [] => []
  | '\\' :: 'l' :: rest => '\n' :: unescape rest
  | '\\' :: c :: rest => c :: unescape rest
  | c :: rest => c :: unescape rest

theorem unescape_escape (c : Char) (rest : List Char) :
    unescape (escape c ++ rest) = c :: unescape rest := by
  by_cases quote : c = '"'
  · subst quote
    rfl
  by_cases backslash : c = '\\'
  · subst backslash
    rfl
  by_cases newline : c = '\n'
  · subst newline
    rfl
  · have plain : escape c = [c] := by simp [escape, quote, backslash, newline]
    rw [plain, List.singleton_append, unescape]
    · exact fun _ same _ => backslash same
    · exact fun _ _ same _ => backslash same

theorem unescape_flatMap (text : List Char) : unescape (text.flatMap escape) = text := by
  induction text with
  | nil => rfl
  | cons c rest ih => rw [List.flatMap_cons, unescape_escape, ih]

theorem newline_not_mem_escape (c : Char) : '\n' ∉ escape c := by
  unfold escape
  split_ifs with marked newline
  · simp only [Bool.or_eq_true, decide_eq_true_eq] at marked
    rcases marked with rfl | rfl <;> decide
  · decide
  · simpa using Ne.symm newline

def numeral (number : Nat) : List Char :=
  (toString number).toList

def readNumeral (text : List Char) : Nat × List Char :=
  (Nat.ofDigitChars 10 (text.takeWhile Char.isDigit) 0, text.dropWhile Char.isDigit)

theorem readNumeral_append (number : Nat) {rest : List Char}
    (ends : rest.head?.any Char.isDigit = false) :
    readNumeral (numeral number ++ rest) = (number, rest) := by
  have digits : ∀ d ∈ numeral number, d.isDigit := fun d => isDigit_of_mem_toString
  have value : Nat.ofDigitChars 10 (numeral number) 0 = number := by
    rw [numeral, Nat.toString_eq_ofList_toDigits, String.toList_ofList, Nat.ofDigitChars_ten_toDigits]
  have none : rest.takeWhile Char.isDigit = [] ∧ rest.dropWhile Char.isDigit = rest := by
    cases rest with
    | nil => exact ⟨rfl, rfl⟩
    | cons c rest =>
        have other : c.isDigit = false := ends
        simp [other]
  rw [readNumeral, List.takeWhile_append_of_pos digits, List.dropWhile_append_of_pos digits, none.1,
    none.2, List.append_nil, value]

def indent : List Char := [' ', ' ', ' ', ' ']

def labelStart : List Char := [' ', '[', ' ', 'l', 'a', 'b', 'e', 'l', ' ', '=', ' ', '"']
def labelEnd : List Char := ['"', ' ', ']']

def arrow : List Char := [' ', '-', '>', ' ']
def edgeEnd : List Char := [' ', '[', ' ', ']']

def readNode (line : List Char) : Option String := do
  let numbered ← dropStart? indent line
  let labelled ← dropStart? labelStart (readNumeral numbered).2
  let shown ← dropEnd? labelEnd labelled
  return String.ofList (unescape shown)

def readEdge (line : List Char) : Option (Nat × Nat) := do
  let numbered ← dropStart? indent line
  let (caller, pointing) := readNumeral numbered
  let numbered ← dropStart? arrow pointing
  let (callee, ending) := readNumeral numbered
  if ending = edgeEnd then return (caller, callee) else none

def numberedLine (number : Nat) (rest : List Char) : List Char :=
  indent ++ (numeral number ++ rest)

def labelText (id : MethodId) : List Char :=
  labelStart ++ (id.key.toList.flatMap escape ++ labelEnd)

def arrowText (callee : Nat) : List Char :=
  arrow ++ (numeral callee ++ edgeEnd)

theorem toList_nodeLine (number : Nat) (id : MethodId) :
    (nodeLine number id).toList = numberedLine number (labelText id) ++ ['\n'] := by
  have spelled : "    ".toList = indent ∧ " [ label = \"".toList = labelStart ∧
      "\" ]\n".toList = labelEnd ++ ['\n'] := by decide
  rw [nodeLine, String.toList_append, String.toList_append, String.toList_append, String.toList_append,
    spelled.1, spelled.2.1, spelled.2.2, label, String.toList_ofList, numberedLine, labelText, numeral]
  simp only [List.append_assoc]

theorem toList_edgeLine (caller callee : Nat) :
    (edgeLine caller callee).toList = numberedLine caller (arrowText callee) ++ ['\n'] := by
  have spelled : "    ".toList = indent ∧ " -> ".toList = arrow ∧
      " [ ]\n".toList = edgeEnd ++ ['\n'] := by decide
  rw [edgeLine, String.toList_append, String.toList_append, String.toList_append, String.toList_append,
    spelled.1, spelled.2.1, spelled.2.2, numberedLine, arrowText, numeral, numeral]
  simp only [List.append_assoc]

theorem newline_not_mem_numberedLine {number : Nat} {rest : List Char} (absent : '\n' ∉ rest) :
    '\n' ∉ numberedLine number rest := by
  rw [numberedLine, List.mem_append, List.mem_append, not_or, not_or]
  exact ⟨by decide, newline_not_mem_toString number, absent⟩

theorem newline_not_mem_labelText (id : MethodId) : '\n' ∉ labelText id := by
  rw [labelText, List.mem_append, List.mem_append, not_or, not_or, List.mem_flatMap]
  exact ⟨by decide, fun ⟨c, _, member⟩ => newline_not_mem_escape c member, by decide⟩

theorem newline_not_mem_arrowText (callee : Nat) : '\n' ∉ arrowText callee := by
  rw [arrowText, List.mem_append, List.mem_append, not_or, not_or]
  exact ⟨by decide, newline_not_mem_toString callee, by decide⟩

theorem readNode_label (number : Nat) (id : MethodId) :
    readNode (numberedLine number (labelText id)) = some id.key := by
  have numbered : readNumeral (numeral number ++ labelText id) = (number, labelText id) :=
    readNumeral_append number rfl
  simp only [readNode, numberedLine, dropStart?_append, Option.bind_eq_bind, Option.bind_some, numbered]
  simp only [labelText, dropStart?_append, dropEnd?_append, Option.bind_some, unescape_flatMap,
    String.ofList_toList, Option.pure_def]

theorem readEdge_label (number : Nat) (id : MethodId) :
    readEdge (numberedLine number (labelText id)) = none := by
  have numbered : readNumeral (numeral number ++ labelText id) = (number, labelText id) :=
    readNumeral_append number rfl
  simp only [readEdge, numberedLine, dropStart?_append, Option.bind_eq_bind, Option.bind_some, numbered]
  rfl

theorem readEdge_arrow (caller callee : Nat) :
    readEdge (numberedLine caller (arrowText callee)) = some (caller, callee) := by
  have numbered : readNumeral (numeral caller ++ arrowText callee) = (caller, arrowText callee) :=
    readNumeral_append caller rfl
  have ended : readNumeral (numeral callee ++ edgeEnd) = (callee, edgeEnd) :=
    readNumeral_append callee rfl
  simp only [readEdge, numberedLine, dropStart?_append, Option.bind_eq_bind, Option.bind_some, numbered]
  simp only [arrowText, dropStart?_append, Option.bind_some, ended, if_true, Option.pure_def]

theorem readNode_arrow (caller callee : Nat) :
    readNode (numberedLine caller (arrowText callee)) = none := by
  have numbered : readNumeral (numeral caller ++ arrowText callee) = (caller, arrowText callee) :=
    readNumeral_append caller rfl
  simp only [readNode, numberedLine, dropStart?_append, Option.bind_eq_bind, Option.bind_some, numbered]
  rfl

def decode (text : String) : List String × List (Nat × Nat) :=
  let lines := splitAt '\n' text.toList
  (lines.filterMap readNode, lines.filterMap readEdge)

end Dot

open Dot

def numberedCalls (graph : CallGraph) : List (Nat × Nat) :=
  graph.edges.map fun call => (graph.nodes.idxOf call.1, graph.nodes.idxOf call.2)

variable (graph : CallGraph)

def nodeLines : List (List Char) :=
  graph.nodes.zipIdx.map fun entry => numberedLine entry.2 (labelText entry.1)

def edgeLines : List (List Char) :=
  graph.numberedCalls.map fun call => numberedLine call.1 (arrowText call.2)

theorem toList_nodes : (String.join (graph.nodes.mapIdx nodeLine)).toList =
    graph.nodeLines.flatMap (· ++ ['\n']) := by
  rw [String.toList_join, List.mapIdx_eq_zipIdx_map, nodeLines, List.flatMap_map, List.flatMap_map]
  exact List.flatMap_congr fun entry _ => toList_nodeLine entry.2 entry.1

theorem toList_edges : (String.join (graph.edges.map fun (caller, callee) =>
    edgeLine (graph.nodes.idxOf caller) (graph.nodes.idxOf callee))).toList =
      graph.edgeLines.flatMap (· ++ ['\n']) := by
  rw [String.toList_join, edgeLines, numberedCalls, List.map_map, List.flatMap_map, List.flatMap_map]
  exact List.flatMap_congr fun call _ => toList_edgeLine _ _

theorem newline_not_mem_lines : ∀ line ∈ graph.nodeLines ++ graph.edgeLines, '\n' ∉ line := by
  intro line member
  rcases List.mem_append.mp member with node | edge
  · obtain ⟨entry, -, rfl⟩ := List.mem_map.mp node
    exact newline_not_mem_numberedLine (newline_not_mem_labelText entry.1)
  · obtain ⟨call, -, rfl⟩ := List.mem_map.mp edge
    exact newline_not_mem_numberedLine (newline_not_mem_arrowText call.2)

theorem splitAt_dot : Text.splitAt '\n' graph.dot.toList =
    "digraph \x7b".toList :: (graph.nodeLines ++ graph.edgeLines) ++ ["\x7d".toList, []] := by
  have first : "digraph \x7b\n".toList = "digraph \x7b".toList ++ '\n' :: [] := by decide
  have last : Text.splitAt '\n' "\x7d\n".toList = ["\x7d".toList, []] := by decide
  have absent : '\n' ∉ "digraph \x7b".toList := by decide
  rw [dot, String.toList_append, String.toList_append, String.toList_append, first, toList_nodes,
    toList_edges, List.append_assoc, List.append_assoc, List.append_assoc, List.cons_append,
    List.nil_append, Text.splitAt_append, Text.splitAt_of_not_mem absent, ← List.append_assoc,
    ← List.flatMap_append, Text.splitAt_flatMap graph.newline_not_mem_lines, last]
  rfl

theorem readNode_nodeLines : graph.nodeLines.filterMap readNode = graph.nodes.map MethodId.key := by
  calc graph.nodeLines.filterMap readNode
      = graph.nodes.zipIdx.filterMap fun entry => some entry.1.key := by
        rw [nodeLines, List.filterMap_map]
        exact List.filterMap_congr fun entry _ => readNode_label entry.2 entry.1
    _ = (graph.nodes.zipIdx.map Prod.fst).map MethodId.key := by
        rw [List.filterMap_eq_map', List.map_map]
        rfl
    _ = graph.nodes.map MethodId.key := by rw [List.zipIdx_map_fst]

theorem readNode_edgeLines : graph.edgeLines.filterMap readNode = [] := by
  rw [edgeLines, List.filterMap_map]
  exact List.filterMap_eq_nil_iff.mpr fun call _ => readNode_arrow call.1 call.2

theorem readEdge_nodeLines : graph.nodeLines.filterMap readEdge = [] := by
  rw [nodeLines, List.filterMap_map]
  exact List.filterMap_eq_nil_iff.mpr fun entry _ => readEdge_label entry.2 entry.1

theorem readEdge_edgeLines : graph.edgeLines.filterMap readEdge = graph.numberedCalls := by
  rw [edgeLines, List.filterMap_map]
  calc graph.numberedCalls.filterMap (readEdge ∘ fun call => numberedLine call.1 (arrowText call.2))
      = graph.numberedCalls.filterMap some :=
        List.filterMap_congr fun call _ => readEdge_arrow call.1 call.2
    _ = graph.numberedCalls := List.filterMap_some

theorem decode_dot : decode graph.dot = (graph.nodes.map MethodId.key, graph.numberedCalls) := by
  have head : readNode "digraph \x7b".toList = none ∧ readEdge "digraph \x7b".toList = none := by decide
  have tail : ["\x7d".toList, []].filterMap readNode = [] ∧
      ["\x7d".toList, []].filterMap readEdge = [] := by decide
  simp only [decode, splitAt_dot, List.cons_append, List.filterMap_cons, head.1, head.2, List.filterMap_append,
    tail.1, tail.2, readNode_nodeLines, readNode_edgeLines, readEdge_nodeLines, readEdge_edgeLines,
    List.append_nil, List.nil_append]

variable {graph}

theorem getElem?_idxOf_nodes {id : MethodId} (member : id ∈ graph.nodes) :
    graph.nodes[graph.nodes.idxOf id]? = some id := by
  have bound := List.idxOf_lt_length_of_mem member
  rw [List.getElem?_eq_getElem bound, List.getElem_idxOf bound]

theorem getElem?_numberedCalls (graph : CallGraph) :
    graph.numberedCalls.map (fun call => (graph.nodes[call.1]?, graph.nodes[call.2]?)) =
      graph.edges.map fun call => (some call.1, some call.2) := by
  rw [numberedCalls, List.map_map]
  refine List.map_congr_left fun call listed => ?_
  have calling := (graph.mem_nodes call.1).mpr (.inr (.inl ⟨call.2, listed⟩))
  have called := (graph.mem_nodes call.2).mpr (.inr (.inr ⟨call.1, listed⟩))
  exact Prod.ext (getElem?_idxOf_nodes calling) (getElem?_idxOf_nodes called)

theorem dot_decodable (graph : CallGraph) :
    decode graph.dot = (graph.nodes.map MethodId.key, graph.numberedCalls) ∧
      graph.numberedCalls.map (fun call => (graph.nodes[call.1]?, graph.nodes[call.2]?)) =
        graph.edges.map (fun call => (some call.1, some call.2)) ∧
      ∀ other : CallGraph, other.dot = graph.dot →
        other.nodes.map MethodId.key = graph.nodes.map MethodId.key ∧
          other.numberedCalls = graph.numberedCalls := by
  refine ⟨graph.decode_dot, graph.getElem?_numberedCalls, fun other same => ?_⟩
  have shown := other.decode_dot
  rw [same, graph.decode_dot] at shown
  exact ⟨(congrArg Prod.fst shown).symm, (congrArg Prod.snd shown).symm⟩

def withParameters : CallGraph :=
  empty.addCall ⟨"p.A", "run", some "int"⟩ ⟨"p.B", "go", none⟩

def withLongName : CallGraph :=
  empty.addCall ⟨"p.A", "run(int)", none⟩ ⟨"p.B", "go", none⟩

theorem dot_decodable_sameKeys :
    withLongName.dot = withParameters.dot ∧
      withLongName.nodes.map MethodId.key = withParameters.nodes.map MethodId.key ∧
      withLongName.numberedCalls = withParameters.numberedCalls := by
  have same : withLongName.dot = withParameters.dot := by decide +kernel
  exact ⟨same, (dot_decodable withParameters).2.2 withLongName same⟩

end CallContext.CallGraph
