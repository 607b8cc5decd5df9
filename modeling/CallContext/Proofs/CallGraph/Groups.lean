import CallContext.CallGraph.Statistics
import CallContext.Proofs.CallGraph.History
import CallContext.Proofs.CallGraph.Related
import CallContext.Proofs.Search.Limit

/-!
Recursive groups are counted by one method of each. A recursive group is a strongly connected component
of the calls that has several methods, or one method that calls itself; the methods of one group are those
that lead to each other and to themselves.
-/

namespace CallContext

open Relation Search Collection

section

variable {α : Type} {next : α → α → Prop}

def component (next : α → α → Prop) (place : α) : Set α :=
  {other | ReflTransGen next place other ∧ ReflTransGen next other place}

def IsRecursiveGroup (next : α → α → Prop) (group : Set α) : Prop :=
  ∃ place, group = component next place ∧ (group.Nontrivial ∨ next place place)

def Mutual (next : α → α → Prop) (place other : α) : Prop :=
  TransGen next place other ∧ TransGen next other place

theorem Mutual.symm {place other : α} (both : Mutual next place other) : Mutual next other place :=
  ⟨both.2, both.1⟩

theorem transGen_self_iff {place : α} :
    TransGen next place place ↔ (component next place).Nontrivial ∨ next place place := by
  constructor
  · intro around
    obtain ⟨other, stepped, onward⟩ := TransGen.head'_iff.mp around
    by_cases same : other = place
    · exact .inr (same ▸ stepped)
    · exact .inl ⟨other, ⟨.single stepped, onward⟩, place, ⟨.refl, .refl⟩, same⟩
  · rintro (several | stepped)
    · obtain ⟨other, ⟨onward, back⟩, apart⟩ := several.exists_ne place
      rcases reflTransGen_iff_eq_or_transGen.mp onward with same | onward
      · exact absurd same apart
      · exact onward.trans_left back
    · exact .single stepped

theorem component_eq_iff {place other : α} (around : TransGen next place place) :
    component next place = component next other ↔ Mutual next place other := by
  constructor
  · intro same
    have member : other ∈ component next place := same ▸ ⟨.refl, .refl⟩
    exact ⟨TransGen.trans_left around member.1, TransGen.trans_right member.2 around⟩
  · rintro ⟨onward, back⟩
    ext far
    constructor
    · rintro ⟨out, home⟩
      exact ⟨back.to_reflTransGen.trans out, home.trans onward.to_reflTransGen⟩
    · rintro ⟨out, home⟩
      exact ⟨onward.to_reflTransGen.trans out, home.trans back.to_reflTransGen⟩

end

namespace CallGraph

variable (graph : CallGraph)

theorem mem_below (id other : MethodId) : other ∈ graph.below id ↔ TransGen graph.Calls id other := by
  rw [below, List.mem_append, TransGen.head'_iff]
  constructor
  · rintro (called | reached)
    · exact ⟨other, (graph.mem_callees id other).mp called, .refl⟩
    · obtain ⟨-, callee, called, n, -, walk⟩ := (mem_reached_callees graph _ _ other).mp reached
      exact ⟨callee, (graph.mem_callees id callee).mp called, exists_walk_iff.mp ⟨n, walk⟩⟩
  · rintro ⟨callee, called, onward⟩
    obtain ⟨n, walk⟩ := exists_walk_iff.mpr onward
    by_cases near : other ∈ graph.callees id
    · exact .inl near
    · right
      have covered : ∀ id, ∀ next ∈ graph.callees id, next ∈ graph.nodes :=
        fun _ _ => graph.mem_nodes_of_mem_neighbours .forward
      rw [← reached_of_le covered le_rfl (Nat.le_add_right graph.nodes.length n), mem_reached_callees]
      exact ⟨near, callee, (graph.mem_callees id callee).mpr called, n, Nat.le_add_left n _, walk⟩

structure StandFor (heads : List (MethodId × List MethodId)) (seen : List MethodId) : Prop where
  below : ∀ head ∈ heads, head.2 = graph.below head.1
  around : ∀ head ∈ heads, TransGen graph.Calls head.1 head.1
  apart : heads.Pairwise fun head other => ¬ Mutual graph.Calls head.1 other.1
  cover : ∀ id ∈ seen, TransGen graph.Calls id id → ∃ head ∈ heads, Mutual graph.Calls head.1 id

variable {graph}

theorem eachOther_iff {method other : MethodId × List MethodId}
    (left : method.2 = graph.below method.1) (right : other.2 = graph.below other.1) :
    eachOther method other ↔ Mutual graph.Calls method.1 other.1 := by
  simp only [eachOther, left, right, Bool.and_eq_true, List.contains_iff_mem, mem_below, Mutual]

theorem StandFor.add {heads : List (MethodId × List MethodId)} {seen : List MethodId} {id : MethodId}
    (stand : graph.StandFor heads seen) (around : TransGen graph.Calls id id)
    (new : ∀ head ∈ heads, ¬ Mutual graph.Calls id head.1) :
    graph.StandFor ((id, graph.below id) :: heads) (seen ++ [id]) where
  below := List.forall_mem_cons.mpr ⟨rfl, stand.below⟩
  around := List.forall_mem_cons.mpr ⟨around, stand.around⟩
  apart := List.pairwise_cons.mpr ⟨new, stand.apart⟩
  cover := by
    intro other member recursive
    rcases List.mem_append.mp member with old | last
    · obtain ⟨head, listed, both⟩ := stand.cover other old recursive
      exact ⟨head, List.mem_cons_of_mem _ listed, both⟩
    · rw [List.mem_singleton.mp last]
      exact ⟨_, List.mem_cons_self, around, around⟩

theorem StandFor.skip {heads : List (MethodId × List MethodId)} {seen : List MethodId} {id : MethodId}
    (stand : graph.StandFor heads seen)
    (known : TransGen graph.Calls id id → ∃ head ∈ heads, Mutual graph.Calls head.1 id) :
    graph.StandFor heads (seen ++ [id]) := by
  refine { stand with cover := fun other member recursive => ?_ }
  rcases List.mem_append.mp member with old | last
  · exact stand.cover other old recursive
  · obtain rfl := List.mem_singleton.mp last
    exact known recursive

theorem StandFor.groupHeads {heads : List (MethodId × List MethodId)} {seen : List MethodId}
    (stand : graph.StandFor heads seen) (ids : List MethodId) :
    graph.StandFor (groupHeads heads (ids.map fun id => (id, graph.below id))) (seen ++ ids) := by
  induction ids generalizing heads seen with
  | nil => simpa [CallGraph.groupHeads] using stand
  | cons id rest ih =>
      have itself : eachOther (id, graph.below id) (id, graph.below id) ↔ TransGen graph.Calls id id :=
        (eachOther_iff rfl rfl).trans (and_self_iff)
      have among (head : MethodId × List MethodId) (member : head ∈ heads) :
          eachOther (id, graph.below id) head ↔ Mutual graph.Calls id head.1 :=
        eachOther_iff rfl (stand.below head member)
      rw [List.map_cons, CallGraph.groupHeads, List.append_cons]
      split_ifs with fresh
      · rw [Bool.and_eq_true, Bool.not_eq_true', List.any_eq_false] at fresh
        refine ih (stand.add (itself.mp fresh.1) fun head member both => ?_)
        exact fresh.2 head member ((among head member).mpr both)
      · refine ih (stand.skip fun around => ?_)
        rw [Bool.and_eq_true, Bool.not_eq_true', List.any_eq_false] at fresh
        push Not at fresh
        obtain ⟨head, member, both⟩ := fresh (itself.mpr around)
        exact ⟨head, member, ((among head member).mp both).symm⟩

/-- The number of recursive groups is that of the strongly connected components with a way around. -/
theorem recursiveGroups_eq_ncard (graph : CallGraph) :
    graph.recursiveGroups = {group | IsRecursiveGroup graph.Calls group}.ncard := by
  have none : graph.StandFor [] [] := ⟨by simp, by simp, .nil, by simp⟩
  have stand := none.groupHeads graph.nodes
  rw [List.nil_append] at stand
  rw [recursiveGroups, ← List.length_map fun head => component graph.Calls head.1]
  refine length_eq_ncard ?_ fun group => ?_
  · rw [List.Nodup, List.pairwise_map]
    refine stand.apart.imp_of_mem fun {head _} member _ apart same => apart ?_
    exact (component_eq_iff (stand.around head member)).mp same
  · rw [List.mem_map, Set.mem_ofPred_eq]
    constructor
    · rintro ⟨head, member, rfl⟩
      exact ⟨head.1, rfl, transGen_self_iff.mp (stand.around head member)⟩
    · rintro ⟨id, rfl, recursive⟩
      have around := transGen_self_iff.mpr recursive
      obtain ⟨callee, called, -⟩ := TransGen.head'_iff.mp around
      have node : id ∈ graph.nodes :=
        (graph.mem_nodes id).mpr (.inr (.inl ⟨callee, called⟩))
      obtain ⟨head, member, both⟩ := stand.cover id node around
      exact ⟨head, member, (component_eq_iff (stand.around head member)).mpr both⟩

end CallGraph

end CallContext
