import Mathlib.Data.List.Perm.Basic
import CallContext.Proofs.CallGraph.Hops
import CallContext.Proofs.Text.Outline

/-!
The tree of a trace. Its hops are linked into a tree with the traced method at the root, since each hop is
led to by one that is one step less deep. The outline of a trace is that tree: every hop stands in it
once, below the hop that leads to it and as deep as it is far from the traced method. No hop is deeper
than there are hops, so the depth to which an outline is drawn leaves nothing out.
-/

namespace CallContext

inductive HopTree where
  | mk (hop : Hop) (onward : List HopTree)

namespace HopTree

def hop : HopTree → Hop
  | ⟨hop, _⟩ => hop

def onward : HopTree → List HopTree
  | ⟨_, onward⟩ => onward

def hops : HopTree → List Hop
  | ⟨hop, onward⟩ => hop :: onward.flatMap hops

def outline (color : Bool) : HopTree → Outline
  | ⟨hop, onward⟩ => ⟨Trace.label color hop.method hop.location, onward.map (outline color)⟩

theorem hops_mk (hop : Hop) (onward : List HopTree) :
    hops ⟨hop, onward⟩ = hop :: onward.flatMap hops := by
  rw [hops]

theorem outline_mk (color : Bool) (hop : Hop) (onward : List HopTree) :
    outline color ⟨hop, onward⟩ =
      ⟨Trace.label color hop.method hop.location, onward.map (outline color)⟩ := by
  rw [outline]

def forest (hops : List Hop) : Nat → MethodId → List HopTree
  | 0, _ => []
  | depth + 1, parent =>
    (hops.filter (·.via = parent)).map fun hop => ⟨hop, forest hops depth hop.method⟩

end HopTree

open HopTree

def LedFrom (hops : List Hop) (id parent : MethodId) : Prop :=
  ∃ hop ∈ hops.filter (·.via = parent), hop.method = id

/-- The trees are those of all hops that a method leads to, in order, and each hop is as deep as it
stands; so on below every hop. -/
inductive Nests (hops : List Hop) : Nat → MethodId → List HopTree → Prop
  | intro {depth : Nat} {parent : MethodId} {trees : List HopTree}
      (siblings : trees.map HopTree.hop = hops.filter (·.via = parent))
      (depths : ∀ tree ∈ trees, tree.hop.depth = depth + 1)
      (onward : ∀ tree ∈ trees, Nests hops (depth + 1) tree.hop.method tree.onward) :
      Nests hops depth parent trees

theorem branches_eq_map_outline (color : Bool) (hops : List Hop) (depth : Nat) (parent : MethodId) :
    Trace.branches color hops depth parent = (forest hops depth parent).map (outline color) := by
  induction depth generalizing parent with
  | zero => rfl
  | succ depth ih => simp only [Trace.branches, forest, List.map_map, Function.comp_def, outline_mk, ih]

mutual

theorem labels_outline (color : Bool) : ∀ tree : HopTree,
    (tree.outline color).labels = tree.hops.map fun hop => Trace.label color hop.method hop.location
  | ⟨hop, onward⟩ => by
      rw [outline_mk, Outline.labels_mk, hops_mk, List.map_cons, labels_outlines]

theorem labels_outlines (color : Bool) : ∀ trees : List HopTree,
    (trees.map (outline color)).flatMap Outline.labels =
      (trees.flatMap hops).map fun hop => Trace.label color hop.method hop.location
  | [] => rfl
  | tree :: rest => by
      rw [List.map_cons, List.flatMap_cons, List.flatMap_cons, List.map_append, labels_outline,
        labels_outlines]

end

/-! ## Hops that form a tree -/

def IsNode (target : MethodId) (hops : List Hop) (depth : Nat) (id : MethodId) : Prop :=
  depth = 0 ∧ id = target ∨ ∃ hop ∈ hops, hop.method = id ∧ hop.depth = depth

structure Rooted (target : MethodId) (hops : List Hop) : Prop where
  nodup : (hops.map (·.method)).Nodup
  new : ∀ hop ∈ hops, hop.method ≠ target
  led : ∀ hop ∈ hops, ∃ depth, IsNode target hops depth hop.via ∧ hop.depth = depth + 1

namespace Rooted

variable {target : MethodId} {hops : List Hop}

theorem depth_unique (rooted : Rooted target hops) {depth depth' : Nat} {id : MethodId}
    (one : IsNode target hops depth id) (other : IsNode target hops depth' id) : depth = depth' := by
  rcases one with ⟨rfl, rfl⟩ | ⟨hop, member, rfl, rfl⟩ <;>
    rcases other with ⟨rfl, same⟩ | ⟨hop', member', same, rfl⟩
  · rfl
  · exact absurd same (rooted.new hop' member')
  · exact absurd same (rooted.new hop member)
  · rw [List.inj_on_of_nodup_map rooted.nodup member' member same]

theorem depth_of_via (rooted : Rooted target hops) {depth : Nat} {hop : Hop} (member : hop ∈ hops)
    (node : IsNode target hops depth hop.via) : hop.depth = depth + 1 := by
  obtain ⟨depth', node', deep⟩ := rooted.led hop member
  rw [deep, rooted.depth_unique node' node]

theorem isNode_via (rooted : Rooted target hops) {depth : Nat} {hop : Hop} (member : hop ∈ hops)
    (deep : hop.depth = depth + 1) : IsNode target hops depth hop.via := by
  obtain ⟨depth', node, deep'⟩ := rooted.led hop member
  obtain rfl : depth' = depth := Nat.succ.inj (deep'.symm.trans deep)
  exact node

theorem exists_depth (rooted : Rooted target hops) {n : Nat} {hop : Hop} (member : hop ∈ hops)
    (deep : n < hop.depth) : ∃ other ∈ hops, other.depth = n + 1 := by
  generalize length : hop.depth = depth at deep
  induction depth generalizing hop with
  | zero => exact absurd deep (Nat.not_lt_zero n)
  | succ depth ih =>
      obtain rfl | above := Nat.eq_or_lt_of_le (Nat.le_of_lt_succ deep)
      · exact ⟨hop, member, length⟩
      · rcases rooted.isNode_via member length with ⟨rfl, -⟩ | ⟨before, member', -, length'⟩
        · exact absurd above (Nat.not_lt_zero n)
        · exact ih member' length' above

theorem depth_le (rooted : Rooted target hops) : ∀ hop ∈ hops, hop.depth ≤ 0 + hops.length := by
  intro hop member
  rw [Nat.zero_add]
  have covered : List.range hop.depth ⊆ hops.map (·.depth - 1) := by
    intro n below
    obtain ⟨other, member', deep⟩ := rooted.exists_depth member (List.mem_range.mp below)
    exact List.mem_map.mpr ⟨other, member', by rw [deep, Nat.add_sub_cancel]⟩
  simpa using (List.nodup_range.subperm covered).length_le

theorem filter_via_eq_nil (rooted : Rooted target hops) {depth : Nat} {parent : MethodId}
    (node : IsNode target hops depth parent) (deepest : ∀ hop ∈ hops, hop.depth ≤ depth) :
    hops.filter (·.via = parent) = [] := by
  refine List.filter_eq_nil_iff.mpr fun hop member leads => ?_
  obtain rfl : hop.via = parent := of_decide_eq_true leads
  have below := rooted.depth_of_via member node
  have bound := deepest hop member
  omega

theorem isNode_of_mem_filter (rooted : Rooted target hops) {depth : Nat} {parent : MethodId}
    (node : IsNode target hops depth parent) {hop : Hop}
    (led : hop ∈ hops.filter (·.via = parent)) :
    hop.depth = depth + 1 ∧ IsNode target hops (depth + 1) hop.method := by
  obtain ⟨member, leads⟩ := List.mem_filter.mp led
  obtain rfl : hop.via = parent := of_decide_eq_true leads
  have deep := rooted.depth_of_via member node
  exact ⟨deep, .inr ⟨hop, member, rfl, deep⟩⟩

theorem enough_below {depth limit : Nat} (enough : ∀ hop ∈ hops, hop.depth ≤ depth + (limit + 1)) :
    ∀ hop ∈ hops, hop.depth ≤ depth + 1 + limit := by
  intro hop member
  rw [Nat.add_right_comm]
  exact enough hop member

theorem nests_forest (rooted : Rooted target hops) {depth : Nat} {parent : MethodId}
    (node : IsNode target hops depth parent) (limit : Nat)
    (enough : ∀ hop ∈ hops, hop.depth ≤ depth + limit) :
    Nests hops depth parent (forest hops limit parent) := by
  induction limit generalizing depth parent with
  | zero =>
      have nothing := rooted.filter_via_eq_nil node enough
      exact .intro nothing.symm (by simp [forest]) (by simp [forest])
  | succ limit ih =>
      have shown : ∀ tree ∈ forest hops (limit + 1) parent, ∃ hop ∈ hops.filter (·.via = parent),
          tree = ⟨hop, forest hops limit hop.method⟩ := by
        intro tree member
        obtain ⟨hop, leads, rfl⟩ := List.mem_map.mp member
        exact ⟨hop, leads, rfl⟩
      refine .intro ?_ (fun tree member => ?_) fun tree member => ?_
      · rw [forest, List.map_map]
        exact List.map_id _
      · obtain ⟨hop, leads, rfl⟩ := shown tree member
        exact (rooted.isNode_of_mem_filter node leads).1
      · obtain ⟨hop, leads, rfl⟩ := shown tree member
        exact ih (rooted.isNode_of_mem_filter node leads).2 (enough_below enough)

theorem acc_ledFrom (rooted : Rooted target hops) {depth : Nat} {parent : MethodId}
    (node : IsNode target hops depth parent) (limit : Nat)
    (enough : ∀ hop ∈ hops, hop.depth ≤ depth + limit) : Acc (LedFrom hops) parent := by
  induction limit generalizing depth parent with
  | zero =>
      refine .intro parent fun id ⟨hop, led, _⟩ => ?_
      rw [rooted.filter_via_eq_nil node enough] at led
      exact absurd led List.not_mem_nil
  | succ limit ih =>
      refine .intro parent fun id ⟨hop, led, named⟩ => ?_
      subst named
      exact ih (rooted.isNode_of_mem_filter node led).2 (enough_below enough)

theorem forest_add_limit (rooted : Rooted target hops) {depth : Nat} {parent : MethodId}
    (node : IsNode target hops depth parent) (limit more : Nat)
    (enough : ∀ hop ∈ hops, hop.depth ≤ depth + limit) :
    forest hops (limit + more) parent = forest hops limit parent := by
  induction limit generalizing depth parent with
  | zero =>
      cases more with
      | zero => rfl
      | succ more =>
          rw [Nat.zero_add, forest, forest, rooted.filter_via_eq_nil node enough]
          rfl
  | succ limit ih =>
      rw [Nat.succ_add, forest, forest]
      refine List.map_congr_left fun hop leads => ?_
      rw [ih (rooted.isNode_of_mem_filter node leads).2 (enough_below enough)]

/-! ## Every hop once -/

theorem perm_nextLevel (rooted : Rooted target hops) {depth : Nat} {parents : List MethodId}
    (nodup : parents.Nodup) (level : ∀ id, id ∈ parents ↔ IsNode target hops depth id) :
    (parents.flatMap fun parent => hops.filter (·.via = parent)).Perm
      (hops.filter (·.depth = depth + 1)) := by
  have distinct : hops.Nodup := rooted.nodup.of_map
  rw [List.perm_ext_iff_of_nodup]
  · intro hop
    simp only [List.mem_flatMap, List.mem_filter, decide_eq_true_eq, level]
    constructor
    · rintro ⟨parent, node, member, rfl⟩
      exact ⟨member, rooted.depth_of_via member node⟩
    · rintro ⟨member, deep⟩
      exact ⟨hop.via, rooted.isNode_via member deep, member, rfl⟩
  · refine List.nodup_flatMap.mpr ⟨fun parent _ => distinct.filter _, ?_⟩
    refine nodup.imp fun apart hop left right => apart ?_
    have one : hop.via = _ := of_decide_eq_true (List.mem_filter.mp left).2
    have other : hop.via = _ := of_decide_eq_true (List.mem_filter.mp right).2
    exact one.symm.trans other
  · exact distinct.filter _

theorem filter_depth_perm (hops : List Hop) (depth : Nat) :
    (hops.filter (·.depth = depth + 1) ++ hops.filter (depth + 1 < ·.depth)).Perm
      (hops.filter (depth < ·.depth)) := by
  have here : (hops.filter (depth < ·.depth)).filter (·.depth = depth + 1) =
      hops.filter (·.depth = depth + 1) := by
    rw [List.filter_filter]
    refine List.filter_congr fun hop _ => ?_
    rw [← Bool.decide_and, decide_eq_decide]
    omega
  have deeper : (hops.filter (depth < ·.depth)).filter (fun hop => !decide (hop.depth = depth + 1)) =
      hops.filter (depth + 1 < ·.depth) := by
    rw [List.filter_filter]
    refine List.filter_congr fun hop _ => ?_
    rw [← decide_not, ← Bool.decide_and, decide_eq_decide]
    omega
  rw [← here, ← deeper]
  exact List.filter_append_perm _ _

theorem mem_map_filter_depth (target : MethodId) (hops : List Hop) (depth : Nat) (id : MethodId) :
    id ∈ (hops.filter (·.depth = depth + 1)).map (·.method) ↔ IsNode target hops (depth + 1) id := by
  simp only [IsNode, List.mem_map, List.mem_filter, decide_eq_true_eq]
  constructor
  · rintro ⟨hop, ⟨member, deep⟩, named⟩
    exact .inr ⟨hop, member, named, deep⟩
  · rintro (⟨none, -⟩ | ⟨hop, member, named, deep⟩)
    · exact absurd none (Nat.succ_ne_zero depth)
    · exact ⟨hop, ⟨member, deep⟩, named⟩

theorem perm_hops_forest (rooted : Rooted target hops) {depth : Nat} {parents : List MethodId}
    (nodup : parents.Nodup) (level : ∀ id, id ∈ parents ↔ IsNode target hops depth id) (limit : Nat)
    (enough : ∀ hop ∈ hops, hop.depth ≤ depth + limit) :
    ((parents.flatMap (forest hops limit)).flatMap HopTree.hops).Perm
      (hops.filter (depth < ·.depth)) := by
  -- One level at a time: its own hops, and by induction the deeper ones below them.
  induction limit generalizing depth parents with
  | zero =>
      have nothing : hops.filter (depth < ·.depth) = [] := by
        refine List.filter_eq_nil_iff.mpr fun hop member => ?_
        simpa using enough hop member
      simp [nothing, forest]
  | succ limit ih =>
      let next := parents.flatMap fun parent => hops.filter (·.via = parent)
      have here : next.Perm (hops.filter (·.depth = depth + 1)) := rooted.perm_nextLevel nodup level
      have deeper : (((next.map (·.method)).flatMap (forest hops limit)).flatMap HopTree.hops).Perm
          (hops.filter (depth + 1 < ·.depth)) := by
        refine ih ?_ (fun id => ?_) (enough_below enough)
        · rw [(here.map _).nodup_iff]
          exact rooted.nodup.sublist (List.filter_sublist.map _)
        · rw [(here.map _).mem_iff, mem_map_filter_depth]
      have shown : parents.flatMap (forest hops (limit + 1)) =
          next.map fun hop => ⟨hop, forest hops limit hop.method⟩ := by
        simp only [next, forest, List.map_flatMap]
      calc (parents.flatMap (forest hops (limit + 1))).flatMap HopTree.hops
        _ = next.flatMap fun hop => [hop] ++ (forest hops limit hop.method).flatMap HopTree.hops := by
            simp only [shown, List.flatMap_map, hops_mk, List.singleton_append]
        List.Perm _ (next.flatMap ([·]) ++
            next.flatMap fun hop => (forest hops limit hop.method).flatMap HopTree.hops) :=
          (List.flatMap_append_perm _ _ _).symm
        _ = next ++ ((next.map (·.method)).flatMap (forest hops limit)).flatMap HopTree.hops := by
            simp only [List.flatMap_singleton', List.flatMap_map, List.flatMap_assoc]
        List.Perm _ (hops.filter (·.depth = depth + 1) ++ hops.filter (depth + 1 < ·.depth)) :=
          here.append deeper
        List.Perm _ (hops.filter (depth < ·.depth)) := filter_depth_perm hops depth

end Rooted

/-! ## The tree of a trace -/

structure IsTreeOf (target : MethodId) (hops : List Hop) (trees : List HopTree) : Prop where
  nests : Nests hops 0 target trees
  once : (trees.flatMap HopTree.hops).Perm hops
  nodup : hops.Nodup
  ends : Acc (LedFrom hops) target
  drawn : ∀ color limit, hops.length ≤ limit →
    Trace.branches color hops limit target = trees.map (outline color)

theorem Rooted.isTreeOf {target : MethodId} {hops : List Hop} (rooted : Rooted target hops) :
    IsTreeOf target hops (forest hops hops.length target) where
  nests := rooted.nests_forest (.inl ⟨rfl, rfl⟩) hops.length rooted.depth_le
  once := by
    have root (id : MethodId) : id ∈ [target] ↔ IsNode target hops 0 id := by
      rw [List.mem_singleton]
      refine ⟨fun same => .inl ⟨rfl, same⟩, ?_⟩
      rintro (⟨-, same⟩ | ⟨hop, member, -, shallow⟩)
      · exact same
      · obtain ⟨depth, -, deep⟩ := rooted.led hop member
        omega
    have all : hops.filter (0 < ·.depth) = hops := by
      refine List.filter_eq_self.mpr fun hop member => ?_
      obtain ⟨depth, -, deep⟩ := rooted.led hop member
      simp [deep]
    have perm := rooted.perm_hops_forest (List.nodup_singleton target) root hops.length
      rooted.depth_le
    rwa [List.flatMap_singleton, all] at perm
  nodup := rooted.nodup.of_map
  ends := rooted.acc_ledFrom (.inl ⟨rfl, rfl⟩) hops.length rooted.depth_le
  drawn := by
    intro color limit enough
    obtain ⟨more, rfl⟩ := Nat.exists_eq_add_of_le enough
    rw [branches_eq_map_outline,
      rooted.forest_add_limit (.inl ⟨rfl, rfl⟩) hops.length more rooted.depth_le]

namespace CallGraph

open Search

theorem ShortestHops.rooted {graph : CallGraph} {next : MethodId → MethodId → Prop}
    {target : MethodId} {limit : Nat} {hops : List Hop}
    (shortest : ShortestHops graph next target limit hops) : Rooted target hops where
  nodup := shortest.nodup
  new := by
    rintro hop member rfl
    obtain ⟨depth, positive, -, distance⟩ :=
      (shortest.mem_iff hop.method).mp (List.mem_map_of_mem member)
    have nearest := distance.unique (isDistance_zero_iff.mpr List.mem_cons_self)
    omega
  led := by
    intro hop member
    rcases shortest.led hop member with ⟨first, root⟩ | ⟨before, member', named, deep⟩
    · exact ⟨0, .inl ⟨rfl, root⟩, first⟩
    · exact ⟨before.depth, .inr ⟨before, member', named, rfl⟩, deep.symm⟩

end CallGraph

namespace Trace

theorem labels_sideOutline {color : Bool} {target : MethodId} {hops : List Hop}
    {trees : List HopTree} (tree : IsTreeOf target hops trees) (title : String) :
    (sideOutline color target title hops).labels = (title ++ " (" ++ toString hops.length ++ ")") ::
      (trees.flatMap HopTree.hops).map fun hop => label color hop.method hop.location := by
  rw [sideOutline, Outline.labels_mk, tree.drawn color _ le_rfl, labels_outlines]

theorem newline_not_mem_title {title : String} (plain : '\n' ∉ title.toList) (count : Nat) :
    '\n' ∉ (title ++ " (" ++ toString count ++ ")").toList := by
  have opening : '\n' ∉ " (".toList := by decide
  have closing : '\n' ∉ ")".toList := by decide
  simp only [String.toList_append, List.mem_append, not_or]
  exact ⟨⟨⟨plain, opening⟩, Text.newline_not_mem_toString count⟩, closing⟩

theorem labels_side_plain {color : Bool} {target : MethodId} {hops : List Hop}
    {trees : List HopTree} (tree : IsTreeOf target hops trees) {title : String}
    (plain : '\n' ∉ title.toList)
    (plain' : ∀ hop ∈ hops, '\n' ∉ (label color hop.method hop.location).toList) :
    ∀ text ∈ (sideOutline color target title hops).labels, '\n' ∉ text.toList := by
  rw [labels_sideOutline tree]
  intro text member
  rcases List.mem_cons.mp member with rfl | member
  · exact newline_not_mem_title plain hops.length
  · obtain ⟨hop, shown, rfl⟩ := List.mem_map.mp member
    exact plain' hop (tree.once.mem_iff.mp shown)

theorem length_labels_side {color : Bool} {target : MethodId} {hops : List Hop}
    {trees : List HopTree} (tree : IsTreeOf target hops trees) (title : String) :
    (sideOutline color target title hops).labels.length = hops.length + 1 := by
  rw [labels_sideOutline tree, List.length_cons, List.length_map, tree.once.length_eq]

theorem length_lines_render {traced : Trace} {callers callees : List HopTree}
    (above : IsTreeOf traced.target traced.callers callers)
    (below : IsTreeOf traced.target traced.callees callees) {color : Bool}
    (plain : '\n' ∉ (label color traced.target traced.location).toList)
    (plain' : ∀ hop ∈ traced.callers ++ traced.callees,
      '\n' ∉ (label color hop.method hop.location).toList) :
    (Text.lines (traced.render color).toList).length =
      3 + traced.callers.length + traced.callees.length := by
  have listed : (traced.outline color).labels = label color traced.target traced.location ::
      ((sideOutline color traced.target "callers" traced.callers).labels ++
        (sideOutline color traced.target "callees" traced.callees).labels) := by
    rw [outline, Outline.labels_mk, List.flatMap_cons, List.flatMap_singleton]
  have clear : ∀ text ∈ (traced.outline color).labels, '\n' ∉ text.toList := by
    rw [listed]
    intro text member
    rcases List.mem_cons.mp member with rfl | member
    · exact plain
    · rcases List.mem_append.mp member with member | member
      · exact labels_side_plain above (by decide)
          (fun hop shown => plain' hop (List.mem_append_left _ shown)) text member
      · exact labels_side_plain below (by decide)
          (fun hop shown => plain' hop (List.mem_append_right _ shown)) text member
  rw [render, Outline.length_lines_draw clear, listed, List.length_cons, List.length_append,
    length_labels_side above, length_labels_side below]
  omega

end Trace

namespace CallGraph

/-- The outline of a trace shows every hop once, below the hop that leads to it and as deep as it is, in
the order of the hops; and it has a line for each hop, for the method and for each of the two titles. -/
theorem outline_shows_hops (graph : CallGraph) (target : MethodId) (up down : Nat) :
    let traced := graph.trace target up down
    ∃ callers callees : List HopTree,
      IsTreeOf target traced.callers callers ∧ IsTreeOf target traced.callees callees ∧
      ∀ color,
        traced.outline color = ⟨Trace.label color target (graph.location target),
          [⟨"callers" ++ " (" ++ toString traced.callers.length ++ ")", callers.map (outline color)⟩,
            ⟨"callees" ++ " (" ++ toString traced.callees.length ++ ")",
              callees.map (outline color)⟩]⟩ ∧
        ('\n' ∉ (Trace.label color target (graph.location target)).toList →
          (∀ hop ∈ traced.callers ++ traced.callees,
            '\n' ∉ (Trace.label color hop.method hop.location).toList) →
          (Text.lines (traced.render color).toList).length =
            3 + traced.callers.length + traced.callees.length) := by
  intro traced
  have above := (graph.callers_shortest target up down).rooted.isTreeOf
  have below := (graph.callees_shortest target up down).rooted.isTreeOf
  refine ⟨_, _, above, below, fun color => ⟨?_, @Trace.length_lines_render traced _ _ above below color⟩⟩
  rw [← above.drawn color _ le_rfl, ← below.drawn color _ le_rfl]
  rfl

end CallGraph

end CallContext
