import CallContext.Proofs.CallGraph.Chains
import CallContext.Proofs.CallGraph.History
import CallContext.Proofs.Text.Cut

/-!
The two styles of chains. As long as no name has a space, the names of a chain are read back from its text,
so the chains of two ends are what is left of the full ones when the names between the ends are dropped.
-/

namespace CallContext

namespace Text

/-- The parts of a text between the occurrences of a separator, which are looked for from left to right
after as many characters as the number says. -/
def partsAfter (separator : List Char) : Nat → List Char → List (List Char)
  | _, [] => [[]]
  | skipped + 1, _ :: rest => partsAfter separator skipped rest
  | 0, c :: rest =>
    if separator.isPrefixOf (c :: rest) then [] :: partsAfter separator (separator.length - 1) rest
    else match partsAfter separator 0 rest with
      | [] => [[c]]
      | part :: parts => (c :: part) :: parts

def partsBetween (separator text : String) : List String :=
  (partsAfter separator.toList 0 text.toList).map String.ofList

section

variable {mark : Char} {others : List Char}

theorem partsAfter_skip (separator skipped rest : List Char) :
    partsAfter separator skipped.length (skipped ++ rest) = partsAfter separator 0 rest := by
  induction skipped with
  | nil => rfl
  | cons c skipped ih => exact ih

theorem partsAfter_separator (rest : List Char) :
    partsAfter (mark :: others) 0 (mark :: others ++ rest) =
      [] :: partsAfter (mark :: others) 0 rest := by
  have begins : (mark :: others).isPrefixOf (mark :: (others ++ rest)) := by
    simp [List.isPrefixOf]
  rw [List.cons_append, partsAfter, if_pos begins]
  exact congrArg _ (partsAfter_skip _ others rest)

theorem partsAfter_append {piece : List Char} (absent : mark ∉ piece) {text part : List Char}
    {parts : List (List Char)} (split : partsAfter (mark :: others) 0 text = part :: parts) :
    partsAfter (mark :: others) 0 (piece ++ text) = (piece ++ part) :: parts := by
  induction piece with
  | nil => exact split
  | cons c piece ih =>
      obtain ⟨apart, absent⟩ := not_or.mp (List.mem_cons.not.mp absent)
      have other : (mark :: others).isPrefixOf (c :: (piece ++ text)) = false := by
        simp [List.isPrefixOf, apart]
      rw [List.cons_append, partsAfter, other, ih absent]
      rfl

theorem partsAfter_flatMap {first : List Char} {rest : List (List Char)}
    (absent : ∀ text ∈ first :: rest, mark ∉ text) :
    partsAfter (mark :: others) 0 (first ++ rest.flatMap fun text => mark :: others ++ text) =
      first :: rest := by
  induction rest generalizing first with
  | nil =>
      have alone : partsAfter (mark :: others) 0 (first ++ []) = [first ++ []] :=
        partsAfter_append (absent first (by simp)) rfl
      simpa using alone
  | cons second rest ih =>
      have later := ih fun text member => absent text (List.mem_cons_of_mem _ member)
      have next := @partsAfter_separator mark others
        (second ++ rest.flatMap fun text => mark :: others ++ text)
      rw [later] at next
      have whole := partsAfter_append (absent first (by simp)) next
      simpa using whole

end

theorem partsBetween_joinWith {separator : String} {mark : Char} {others : List Char}
    (begins : separator.toList = mark :: others) {texts : List String} (some : texts ≠ [])
    (absent : ∀ text ∈ texts, mark ∉ text.toList) :
    partsBetween separator (joinWith separator texts) = texts := by
  obtain ⟨first, rest, rfl⟩ := List.exists_cons_of_ne_nil some
  have split : partsAfter (mark :: others) 0 (first.toList ++
      (rest.map String.toList).flatMap fun text => mark :: others ++ text) =
        first.toList :: rest.map String.toList :=
    partsAfter_flatMap (by simpa using absent)
  rw [partsBetween, toList_joinWith_cons, begins, ← List.flatMap_map, split]
  simp

end Text

open Search

theorem Name.mem_of_mem_simpleName {name : String} {c : Char}
    (member : c ∈ (Name.simpleName name).toList) : c ∈ name.toList := by
  rw [simpleName] at member
  cases cut : Text.cutLast '.' name.toList with
  | none => simpa [cut] using member
  | some parts =>
      obtain ⟨before, after⟩ := parts
      rw [(Text.cutLast_eq_some cut).1]
      simp only [cut, String.toList_ofList] at member
      exact List.mem_append_right _ (List.mem_cons_of_mem _ member)

theorem MethodId.space_not_mem_displayName {id : MethodId}
    (spaceless : ' ' ∉ id.owner.toList ∧ ' ' ∉ id.name.toList) : ' ' ∉ id.displayName.toList := by
  intro member
  simp only [displayName, String.toList_append, List.mem_append] at member
  rcases member with ((inOwner | isDot) | inName) | isParenthesis
  · exact spaceless.1 (Name.mem_of_mem_simpleName inOwner)
  · revert isDot
    decide
  · exact spaceless.2 inName
  · revert isParenthesis
    decide

namespace ChainStyle

theorem shown_map {α β : Type} (style : ChainStyle) (f : α → β) (way : List α) :
    style.shown (way.map f) = (style.shown way).map f := by
  cases style with
  | pair =>
      rw [shown, List.head?_map, List.getLast?_map, shown, List.map_append]
      cases way.head? <;> cases way.getLast? <;> rfl
  | path => rfl

def ends (chain : String) : String :=
  Text.joinWith " -> " (pair.shown (Text.partsBetween " -> " chain))

theorem ends_render_path {way : List MethodId} (some : way ≠ [])
    (spaceless : ∀ id ∈ way, ' ' ∉ id.displayName.toList) :
    ends (path.render way) = pair.render way := by
  have names : Text.partsBetween " -> " (path.render way) = way.map (·.displayName) := by
    have begins : " -> ".toList = ' ' :: "-> ".toList := rfl
    refine Text.partsBetween_joinWith begins (by simpa [shown] using some) ?_
    simpa [shown] using spaceless
  rw [ends, names, shown_map, render]

end ChainStyle

namespace CallGraph

variable {graph : CallGraph} {wanted : List MethodId} {up down : Nat}

theorem mem_nodes_of_isChain {way : List MethodId} (chain : way.IsChain graph.Calls)
    (long : 2 ≤ way.length) : ∀ id ∈ way, id ∈ graph.nodes := by
  induction way with
  | nil => simp
  | cons first rest ih =>
      cases rest with
      | nil => simp at long
      | cons second rest =>
          rw [List.isChain_cons_cons] at chain
          obtain ⟨made, onward⟩ := chain
          have calls : first ∈ graph.nodes := (graph.mem_nodes first).mpr (.inr (.inl ⟨second, made⟩))
          have called : second ∈ graph.nodes := (graph.mem_nodes second).mpr (.inr (.inr ⟨first, made⟩))
          intro id member
          rcases List.mem_cons.mp member with rfl | later
          · exact calls
          · cases rest with
            | nil =>
                obtain rfl := List.mem_singleton.mp later
                exact called
            | cons third rest => exact ih onward (by simp) id later

theorem mem_nodes_of_mem_waysOf {seed : MethodId} {way : List MethodId}
    (shown : way ∈ graph.waysOf wanted up down seed) : way ≠ [] ∧ ∀ id ∈ way, id ∈ graph.nodes := by
  have long {neighbours : MethodId → List MethodId} {limit : Nat} {id : MethodId}
      {way : List MethodId} (found : IsFound neighbours limit seed id way) : 2 ≤ way.length := by
    obtain ⟨trail, found, -, rfl⟩ := found
    rw [trail.length_places]
    exact Nat.succ_le_succ ((trails_explored neighbours limit [seed]).deeper trail found)
  rcases mem_waysOf.mp shown with ⟨id, -, found⟩ | ⟨id, -, found⟩
  · have two := long found
    exact ⟨List.ne_nil_of_length_pos (by omega),
      mem_nodes_of_isChain (shortest_of_callees found).chain two⟩
  · have two := long found
    have chain := (shortest_of_callers found).chain
    rw [List.reverse_reverse] at chain
    rw [List.length_reverse] at two
    exact ⟨List.ne_nil_of_length_pos (by omega), mem_nodes_of_isChain chain two⟩

variable (graph wanted up down)

theorem chains_of_length_le (seeds : List MethodId) (style : ChainStyle) {cap : Nat}
    (enough : (seeds.flatMap (graph.waysOf wanted up down)).length ≤ cap) :
    graph.chains seeds wanted up down style cap =
      ((seeds.flatMap (graph.waysOf wanted up down)).map style.render).eraseDups := by
  refine List.take_of_length_le ((Collection.length_eraseDups_le _).trans ?_)
  rwa [List.length_map]

/-- No cap counts that is at least the number of ways. Without one, the chains of two ends are the full
chains cut to their ends, each once. -/
theorem chains_pair_eq_ends (seeds : List MethodId)
    (spaceless : ∀ id ∈ graph.nodes, ' ' ∉ id.owner.toList ∧ ' ' ∉ id.name.toList) :
    let all := (seeds.flatMap (graph.waysOf wanted up down)).length
    (∀ style cap, all ≤ cap →
      graph.chains seeds wanted up down style cap = graph.chains seeds wanted up down style all) ∧
    graph.chains seeds wanted up down .pair all =
      ((graph.chains seeds wanted up down .path all).map ChainStyle.ends).eraseDups := by
  intro all
  refine ⟨fun style cap enough => ?_, ?_⟩
  · rw [chains_of_length_le graph wanted up down seeds style enough,
      chains_of_length_le graph wanted up down seeds style le_rfl]
  · have cut : ∀ way ∈ seeds.flatMap (graph.waysOf wanted up down),
        ChainStyle.pair.render way = ChainStyle.ends (ChainStyle.path.render way) := by
      intro way shown
      obtain ⟨seed, -, shown⟩ := List.mem_flatMap.mp shown
      obtain ⟨some, known⟩ := mem_nodes_of_mem_waysOf shown
      exact (ChainStyle.ends_render_path some fun id member =>
        MethodId.space_not_mem_displayName (spaceless id (known id member))).symm
    rw [chains_of_length_le graph wanted up down seeds .pair le_rfl,
      chains_of_length_le graph wanted up down seeds .path le_rfl, Collection.eraseDups_map,
      List.map_map, List.map_congr_left cut]
    rfl

theorem chains_pair_eq_ends_twoWays :
    let top : MethodId := ⟨"T", "top", none⟩
    let left : MethodId := ⟨"T", "left", none⟩
    let right : MethodId := ⟨"T", "right", none⟩
    let bottom : MethodId := ⟨"T", "bottom", none⟩
    let graph := ofLog [.call top left, .call top right, .call right bottom, .call left bottom]
    let full := ["T.top() -> T.left() -> T.bottom()", "T.top() -> T.right() -> T.bottom()"]
    (∀ id ∈ graph.nodes, ' ' ∉ id.owner.toList ∧ ' ' ∉ id.name.toList) ∧
    graph.chains [top, bottom] [top, bottom] 2 2 .path 20 = full ∧
    graph.chains [top, bottom] [top, bottom] 2 2 .pair 20 = (full.map ChainStyle.ends).eraseDups := by
  intro top left right bottom graph full
  have spaceless : ∀ id ∈ graph.nodes, ' ' ∉ id.owner.toList ∧ ' ' ∉ id.name.toList := by decide
  obtain ⟨uncapped, cut⟩ := chains_pair_eq_ends graph [top, bottom] 2 2 [top, bottom] spaceless
  have few : ([top, bottom].flatMap (graph.waysOf [top, bottom] 2 2)).length ≤ 20 := by
    decide +kernel
  have written : graph.chains [top, bottom] [top, bottom] 2 2 .path 20 = full := by decide +kernel
  rw [← uncapped .path 20 few, written, ← uncapped .pair 20 few] at cut
  exact ⟨spaceless, written, cut⟩

end CallGraph

end CallContext
