import CallContext.Proofs.CallGraph.Dot
import CallContext.Proofs.CallGraph.Groups
import Mathlib.Data.List.GetD

/-!
Recursive groups on the numbered graph. Whichever way the strongly connected components of the numbered
calls are listed, the recursive groups are those components that have several methods or one that calls
itself.
-/

namespace CallContext

open Relation Collection

variable {α β : Type}

structure AreComponents (next : α → α → Prop) (places : List α) (components : List (List α)) :
    Prop where
  partition : components.flatten.Perm places
  nonempty : [] ∉ components
  together : ∀ group ∈ components, ∀ place ∈ group, ∀ other ∈ places,
    other ∈ group ↔ other ∈ component next place

def isRecursive [BEq α] (calls : List (α × α)) : List α → Bool
  | [] => false
  | first :: others => !others.isEmpty || calls.contains (first, first)

namespace AreComponents

section

variable {next : α → α → Prop} {places : List α} {components : List (List α)}

theorem mem_places (are : AreComponents next places components) {group : List α}
    (listed : group ∈ components) {place : α} (member : place ∈ group) : place ∈ places :=
  are.partition.mem_iff.mp (List.mem_flatten_of_mem listed member)

theorem exists_group (are : AreComponents next places components) {place : α}
    (member : place ∈ places) : ∃ group ∈ components, place ∈ group :=
  List.mem_flatten.mp (are.partition.mem_iff.mpr member)

theorem setOf_eq (are : AreComponents next places components)
    (ends : ∀ before after, next before after → after ∈ places) {group : List α}
    (listed : group ∈ components) {place : α} (member : place ∈ group) :
    {other | other ∈ group} = component next place := by
  have here := are.mem_places listed member
  ext other
  rw [Set.mem_ofPred_eq]
  by_cases known : other ∈ places
  · exact are.together group listed place member other known
  · have unlisted : other ∉ group := fun inGroup => known (are.mem_places listed inGroup)
    refine iff_of_false unlisted fun ⟨onward, _⟩ => known ?_
    cases onward with
    | refl => exact here
    | tail _ last => exact ends _ other last

theorem nodup_map_setOf (are : AreComponents next places components) (nodup : places.Nodup) :
    (components.map fun group => {place | place ∈ group}).Nodup := by
  have flat := are.partition.nodup_iff.mpr nodup
  rw [List.nodup_flatten] at flat
  rw [List.Nodup, List.pairwise_map]
  refine flat.2.imp_of_mem fun {group other} listed _ disjoint same => ?_
  obtain ⟨place, member⟩ := List.exists_mem_of_ne_nil group fun empty => are.nonempty (empty ▸ listed)
  have shared : place ∈ {place | place ∈ other} := same ▸ member
  exact disjoint member shared

theorem isRecursive_iff [BEq α] [LawfulBEq α] {calls : List (α × α)}
    (are : AreComponents (fun before after => (before, after) ∈ calls) places components)
    (nodup : places.Nodup) (ends : ∀ call ∈ calls, call.2 ∈ places) {group : List α}
    (listed : group ∈ components) {place : α} (member : place ∈ group) :
    isRecursive calls group ↔
      (component (fun before after => (before, after) ∈ calls) place).Nontrivial ∨
        (place, place) ∈ calls := by
  have same := are.setOf_eq (fun _ _ => ends _) listed member
  have distinct : group.Nodup :=
    (List.nodup_flatten.mp (are.partition.nodup_iff.mpr nodup)).1 group listed
  rw [← same]
  cases group with
  | nil => cases member
  | cons first others =>
      cases others with
      | nil =>
          obtain rfl := List.mem_singleton.mp member
          simp [isRecursive]
      | cons second rest =>
          have apart : first ≠ second := by
            rintro rfl
            simp at distinct
          have several : {other | other ∈ first :: second :: rest}.Nontrivial :=
            ⟨first, by simp, second, by simp, apart⟩
          exact iff_of_true rfl (.inl several)

theorem length_filter_isRecursive [BEq α] [LawfulBEq α] {calls : List (α × α)}
    (are : AreComponents (fun before after => (before, after) ∈ calls) places components)
    (nodup : places.Nodup) (ends : ∀ call ∈ calls, call.1 ∈ places ∧ call.2 ∈ places) :
    (components.filter (isRecursive calls)).length =
      {group | IsRecursiveGroup (fun before after => (before, after) ∈ calls) group}.ncard := by
  have targets : ∀ call ∈ calls, call.2 ∈ places := fun call made => (ends call made).2
  rw [← List.length_map fun group => {place | place ∈ group}]
  refine length_eq_ncard ((are.nodup_map_setOf nodup).sublist (List.filter_sublist.map _)) ?_
  intro set
  rw [List.mem_map, Set.mem_ofPred_eq]
  constructor
  · rintro ⟨group, kept, rfl⟩
    obtain ⟨listed, recursive⟩ := List.mem_filter.mp kept
    obtain ⟨place, member⟩ := List.exists_mem_of_ne_nil group fun empty => are.nonempty (empty ▸ listed)
    rw [are.setOf_eq (fun _ _ => targets _) listed member]
    exact ⟨place, rfl, (are.isRecursive_iff nodup targets listed member).mp recursive⟩
  · rintro ⟨place, rfl, recursive⟩
    obtain ⟨after, called, -⟩ := TransGen.head'_iff.mp (transGen_self_iff.mpr recursive)
    obtain ⟨group, listed, member⟩ := are.exists_group (ends _ called).1
    exact ⟨group, List.mem_filter.mpr
      ⟨listed, (are.isRecursive_iff nodup targets listed member).mpr recursive⟩,
      are.setOf_eq (fun _ _ => targets _) listed member⟩

theorem map {next' : β → β → Prop} (are : AreComponents next places components) {f : α → β}
    {g : β → α} (there : ∀ before after, next before after → next' (f before) (f after))
    (back : ∀ before after, next' before after → next (g before) (g after))
    (inverse : ∀ place ∈ places, g (f place) = place) :
    AreComponents next' (places.map f) (components.map (List.map f)) where
  partition := by
    rw [← List.map_flatten]
    exact are.partition.map f
  nonempty := by
    intro listed
    obtain ⟨group, listed, empty⟩ := List.mem_map.mp listed
    exact are.nonempty (List.map_eq_nil_iff.mp empty ▸ listed)
  together := by
    intro group listed place member other known
    obtain ⟨group, within, rfl⟩ := List.mem_map.mp listed
    obtain ⟨place, inside, rfl⟩ := List.mem_map.mp member
    obtain ⟨other, given, rfl⟩ := List.mem_map.mp known
    -- Since the renaming is undone, membership and ways carry over in both directions.
    have inGroup : f other ∈ group.map f ↔ other ∈ group := by
      refine ⟨fun renamed => ?_, List.mem_map_of_mem⟩
      obtain ⟨twin, inGroup, same⟩ := List.mem_map.mp renamed
      have equal : twin = other := by
        rw [← inverse twin (are.mem_places within inGroup), same, inverse other given]
      exact equal ▸ inGroup
    have reach {before after : α} (start : before ∈ places) (stop : after ∈ places) :
        ReflTransGen next' (f before) (f after) ↔ ReflTransGen next before after := by
      refine ⟨fun way => ?_, fun way => way.lift f there⟩
      have undone : ReflTransGen next (g (f before)) (g (f after)) := way.lift g back
      rwa [inverse before start, inverse after stop] at undone
    have here := are.mem_places within inside
    rw [inGroup, are.together group within place inside other given]
    exact and_congr (reach here given).symm (reach given here).symm

end

end AreComponents

namespace CallGraph

variable (graph : CallGraph)

theorem map_getD_range :
    (List.range graph.nodes.length).map (graph.nodes.getD · default) = graph.nodes := by
  refine List.ext_getElem (by simp) fun number _ bound => ?_
  simp [bound]

theorem idxOf_getD {number : Nat} (bound : number < graph.nodes.length) :
    graph.nodes.idxOf (graph.nodes.getD number default) = number := by
  rw [List.getD_eq_getElem _ _ bound]
  exact (nodup_eraseDups _).idxOf_getElem number bound

theorem getD_idxOf {id : MethodId} (member : id ∈ graph.nodes) :
    graph.nodes.getD (graph.nodes.idxOf id) default = id := by
  have bound := List.idxOf_lt_length_of_mem member
  rw [List.getD_eq_getElem _ _ bound, List.getElem_idxOf bound]

theorem mem_nodes_of_mem_edges {call : MethodId × MethodId} (made : call ∈ graph.edges) :
    call.1 ∈ graph.nodes ∧ call.2 ∈ graph.nodes := by
  exact ⟨(graph.mem_nodes call.1).mpr (.inr (.inl ⟨call.2, made⟩)),
    (graph.mem_nodes call.2).mpr (.inr (.inr ⟨call.1, made⟩))⟩

theorem mem_edges_of_mem_numberedCalls {before after : Nat}
    (made : (before, after) ∈ graph.numberedCalls) :
    (graph.nodes.getD before default, graph.nodes.getD after default) ∈ graph.edges := by
  obtain ⟨⟨caller, callee⟩, listed, same⟩ := List.mem_map.mp made
  obtain ⟨rfl, rfl⟩ := Prod.mk.inj same
  obtain ⟨calling, called⟩ := graph.mem_nodes_of_mem_edges listed
  rwa [graph.getD_idxOf calling, graph.getD_idxOf called]

theorem mem_numberedCalls_of_mem_edges {caller callee : MethodId}
    (made : (caller, callee) ∈ graph.edges) :
    (graph.nodes.idxOf caller, graph.nodes.idxOf callee) ∈ graph.numberedCalls :=
  List.mem_map_of_mem made

theorem isRecursive_map {group : List Nat} (bound : ∀ number ∈ group, number < graph.nodes.length) :
    isRecursive graph.edges (group.map (graph.nodes.getD · default)) =
      isRecursive graph.numberedCalls group := by
  cases group with
  | nil => rfl
  | cons first others =>
      have itself : (graph.nodes.getD first default, graph.nodes.getD first default) ∈ graph.edges ↔
          (first, first) ∈ graph.numberedCalls := by
        refine ⟨fun made => ?_, graph.mem_edges_of_mem_numberedCalls⟩
        have numbered := graph.mem_numberedCalls_of_mem_edges made
        rwa [graph.idxOf_getD (bound first List.mem_cons_self)] at numbered
      simp only [List.map_cons, isRecursive, List.isEmpty_map, List.contains_eq_mem, itself]

theorem length_recursive_components {components : List (List Nat)}
    (are : AreComponents (fun before after => (before, after) ∈ graph.numberedCalls)
      (List.range graph.nodes.length) components) :
    (components.filter (isRecursive graph.numberedCalls)).length = graph.recursiveGroups := by
  have bound : ∀ group ∈ components, ∀ number ∈ group, number < graph.nodes.length :=
    fun group listed number member => List.mem_range.mp (are.mem_places listed member)
  have named : AreComponents graph.Calls graph.nodes
      (components.map (List.map (graph.nodes.getD · default))) := by
    have renamed := are.map (f := (graph.nodes.getD · default)) (g := graph.nodes.idxOf)
      (fun _ _ => graph.mem_edges_of_mem_numberedCalls)
      (fun _ _ => graph.mem_numberedCalls_of_mem_edges)
      (fun _ member => graph.idxOf_getD (List.mem_range.mp member))
    rwa [map_getD_range] at renamed
  calc (components.filter (isRecursive graph.numberedCalls)).length
      = ((components.map (List.map (graph.nodes.getD · default))).filter
          (isRecursive graph.edges)).length := by
        rw [List.filter_map, List.length_map]
        congr 1
        exact List.filter_congr fun group listed => (graph.isRecursive_map (bound group listed)).symm
    _ = {group | IsRecursiveGroup graph.Calls group}.ncard :=
        named.length_filter_isRecursive (nodup_eraseDups _) fun _ => graph.mem_nodes_of_mem_edges
    _ = graph.recursiveGroups := (recursiveGroups_eq_ncard graph).symm

end CallGraph

end CallContext
