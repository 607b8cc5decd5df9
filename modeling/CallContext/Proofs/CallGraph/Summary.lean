import CallContext.Proofs.CallGraph.Components
import CallContext.Proofs.CallGraph.Statistics

namespace CallContext

open Relation Collection

namespace Statistics

def Outranks (a b : MethodId × Nat) : Prop :=
  b.2 < a.2 ∨ a.2 = b.2 ∧ MethodId.compare a.1 b.1 = .lt

theorem outranks_of_ranksBefore {a b : MethodId × Nat} (before : ranksBefore a b) (apart : a ≠ b) :
    Outranks a b := by
  obtain more | ⟨equal, le⟩ := ranksBefore_iff.mp before
  · exact .inl more
  · refine .inr ⟨equal, ?_⟩
    rcases Ordering.isLE_iff_eq_lt_or_eq_eq.mp le with less | same
    · exact less
    · exact absurd (Prod.ext (Std.LawfulEqCmp.eq_of_compare same) equal) apart

structure Lead (partners : MethodId → Set MethodId) (count : Nat) (leading : List (MethodId × Nat)) :
    Prop where
  length : leading.length = count
  distinct : (leading.map (·.1)).Nodup
  counted : ∀ one ∈ leading, (partners one.1).Nonempty ∧ one.2 = (partners one.1).ncard
  ranked : leading.Pairwise Outranks
  before : ∀ id, (partners id).Nonempty → id ∉ leading.map (·.1) →
    ∀ one ∈ leading, Outranks one (id, (partners id).ncard)

theorem IsLeading.lead {partners : MethodId → Set MethodId} {top : Nat}
    {leading : List (MethodId × Nat)} (leads : IsLeading partners top leading) :
    Lead partners (min top {id | (partners id).Nonempty}.ncard) leading := by
  obtain ⟨ranked, nodup, sorted, members, rfl⟩ := leads
  have strict : ranked.Pairwise Outranks :=
    (sorted.and nodup).imp fun ⟨before, apart⟩ => outranks_of_ranksBefore before apart
  have distinct : (ranked.map (·.1)).Nodup := by
    refine nodup.map_on fun ⟨id, n⟩ listed ⟨id', n'⟩ listed' same => ?_
    obtain rfl : id = id' := same
    rw [((members id n).mp listed).2, ((members id n').mp listed').2]
  have all (id : MethodId) : id ∈ ranked.map (·.1) ↔ (partners id).Nonempty := by
    rw [List.mem_map]
    constructor
    · rintro ⟨one, listed, rfl⟩
      exact ((members one.1 one.2).mp listed).1
    · intro some
      exact ⟨_, (members id _).mpr ⟨some, rfl⟩, rfl⟩
  constructor
  case length =>
    have total : ranked.length = {id | (partners id).Nonempty}.ncard :=
      (List.length_map _).symm.trans (length_eq_ncard distinct all)
    rw [List.length_take, total]
  case distinct => exact distinct.sublist ((List.take_sublist top ranked).map _)
  case counted =>
    intro one listed
    exact (members one.1 one.2).mp (List.mem_of_mem_take listed)
  case ranked => exact strict.sublist (List.take_sublist top ranked)
  case before =>
    intro id some absent one listed
    -- What is absent has been cut off, and what is cut off ranks below everything listed.
    have known : (id, (partners id).ncard) ∈ ranked := (members id _).mpr ⟨some, rfl⟩
    rw [← List.take_append_drop top ranked] at known strict
    rcases List.mem_append.mp known with inside | outside
    · exact absurd (List.mem_map_of_mem inside) absent
    · exact (List.pairwise_append.mp strict).2.2 one listed _ outside

end Statistics

namespace CallGraph

open Statistics

variable (graph : CallGraph)

def recursiveClasses : Set (Set MethodId) :=
  {group | ∃ id ∈ graph.nodes, TransGen graph.Calls id id ∧ group = {other | Mutual graph.Calls id other}}

theorem component_eq_mutual {id : MethodId} (around : TransGen graph.Calls id id) :
    component graph.Calls id = {other | Mutual graph.Calls id other} := by
  ext other
  constructor
  · rintro ⟨onward, back⟩
    exact ⟨TransGen.trans_left around onward, TransGen.trans_right back around⟩
  · rintro ⟨onward, back⟩
    exact ⟨onward.to_reflTransGen, back.to_reflTransGen⟩

theorem isRecursiveGroup_iff (group : Set MethodId) :
    IsRecursiveGroup graph.Calls group ↔ group ∈ graph.recursiveClasses := by
  constructor
  · rintro ⟨id, rfl, recursive⟩
    have around := transGen_self_iff.mpr recursive
    obtain ⟨callee, called, -⟩ := TransGen.head'_iff.mp around
    exact ⟨id, (graph.mem_nodes_of_mem_edges called).1, around, graph.component_eq_mutual around⟩
  · rintro ⟨id, -, around, rfl⟩
    rw [← graph.component_eq_mutual around]
    exact ⟨id, rfl, transGen_self_iff.mp around⟩

theorem methods_add_external (top : Nat) :
    (graph.statistics top).methods + (graph.statistics top).external = graph.nodes.length := by
  have declared : (graph.nodes.filter fun id => (graph.location id).isSome).Perm graph.locations.keys := by
    have distinct : graph.nodes.Nodup := nodup_eraseDups _
    refine (List.perm_ext_iff_of_nodup (distinct.filter _) graph.locations.nodup).mpr fun id => ?_
    rw [List.mem_filter]
    constructor
    · rintro ⟨-, known⟩
      exact (graph.mem_keys id).mpr known
    · intro key
      exact ⟨(graph.mem_nodes id).mpr (.inl key), (graph.mem_keys id).mp key⟩
  have methods : (graph.statistics top).methods =
      (graph.nodes.filter fun id => (graph.location id).isSome).length := by
    rw [declared.length_eq, Table.keys, List.length_map]
    rfl
  have external : (graph.statistics top).external =
      (graph.nodes.filter fun id => !(graph.location id).isSome).length := by
    simp only [statistics, Option.not_isSome]
  rw [methods, external, ← List.length_eq_length_filter_add]

/-- The summary of a call graph counts the classes of methods that lead back to themselves, whichever way
components are found; all methods, those that call and those that are called; and it ranks the methods by
their callers and by their callees. -/
theorem statistics_counts (graph : CallGraph) (top : Nat) :
    let summary := graph.statistics top
    summary.recursiveGroups = graph.recursiveClasses.ncard ∧
    (∀ components, AreComponents (fun before after => (before, after) ∈ graph.numberedCalls)
        (List.range graph.nodes.length) components →
      summary.recursiveGroups = (components.filter (isRecursive graph.numberedCalls)).length) ∧
    summary.methods + summary.external = graph.nodes.length ∧
    summary.callers = {id | id ∈ graph.nodes ∧ ∃ callee, graph.Calls id callee}.ncard ∧
    summary.callees = {id | id ∈ graph.nodes ∧ ∃ caller, graph.Calls caller id}.ncard ∧
    Lead (fun id => {caller | graph.Calls caller id}) (min top summary.callees) summary.mostCalled ∧
    Lead (fun id => {callee | graph.Calls id callee}) (min top summary.callers) summary.mostCalling := by
  intro summary
  have summarizes := graph.summarizes_statistics top
  have calling : {id | id ∈ graph.nodes ∧ ∃ callee, graph.Calls id callee} =
      {id | ∃ callee, graph.Calls id callee} := by
    ext id
    exact and_iff_right_of_imp fun ⟨callee, made⟩ => (graph.mem_nodes_of_mem_edges made).1
  have called : {id | id ∈ graph.nodes ∧ ∃ caller, graph.Calls caller id} =
      {id | ∃ caller, graph.Calls caller id} := by
    ext id
    exact and_iff_right_of_imp fun ⟨caller, made⟩ => (graph.mem_nodes_of_mem_edges made).2
  refine ⟨?_, fun components are => (graph.length_recursive_components are).symm,
    graph.methods_add_external top, ?_, ?_, ?_, ?_⟩
  · have classes : {group | IsRecursiveGroup graph.Calls group} = graph.recursiveClasses :=
      Set.ext graph.isRecursiveGroup_iff
    rw [← classes]
    exact summarizes.recursiveGroups
  · rw [calling]
    exact summarizes.callers
  · rw [called]
    exact summarizes.callees
  · rw [summarizes.callees]
    exact summarizes.mostCalled.lead
  · rw [summarizes.callers]
    exact summarizes.mostCalling.lead

def tangle : CallGraph :=
  ofLog [.declaration ⟨"T", "idle", none⟩ ⟨"T.java", 9⟩,
    .call ⟨"T", "ping", none⟩ ⟨"T", "pong", none⟩, .call ⟨"T", "pong", none⟩ ⟨"T", "ping", none⟩,
    .call ⟨"T", "ping", none⟩ ⟨"T", "loop", none⟩, .call ⟨"T", "loop", none⟩ ⟨"T", "loop", none⟩]

theorem numberedCalls_tangle : tangle.numberedCalls = [(1, 2), (1, 3), (2, 1), (3, 3)] := by
  decide +kernel

theorem areComponents_tangle :
    AreComponents (fun before after => (before, after) ∈ tangle.numberedCalls)
      (List.range tangle.nodes.length) [[0], [3], [2, 1]] := by
  have size : tangle.nodes.length = 4 := by decide +kernel
  let level (number : Nat) : Nat := [[0], [3], [2, 1]].findIdx (·.contains number)
  have falls {before after : Nat} (way : ReflTransGen
      (fun before after => (before, after) ∈ [(1, 2), (1, 3), (2, 1), (3, 3)]) before after) :
      level after ≤ level before := by
    have each : ∀ call ∈ [(1, 2), (1, 3), (2, 1), (3, 3)], level call.2 ≤ level call.1 := by decide
    induction way with
    | refl => exact le_rfl
    | tail _ last ih => exact (each _ last).trans ih
  have near : ∀ group ∈ [[0], [3], [2, 1]], ∀ place ∈ group, ∀ other ∈ List.range 4,
      (other ∈ group ↔ level other = level place) ∧
        (other ∈ group → other = place ∨ (place, other) ∈ [(1, 2), (1, 3), (2, 1), (3, 3)] ∧
          (other, place) ∈ [(1, 2), (1, 3), (2, 1), (3, 3)]) := by decide
  rw [size, numberedCalls_tangle]
  refine ⟨by decide, by decide, fun group listed place member other known => ?_⟩
  obtain ⟨same, direct⟩ := near group listed place member other known
  constructor
  · intro inside
    rcases direct inside with rfl | ⟨onward, back⟩
    · exact ⟨.refl, .refl⟩
    · exact ⟨.single onward, .single back⟩
  · rintro ⟨onward, back⟩
    exact same.mpr (le_antisymm (falls onward) (falls back))

theorem statistics_counts_tangle :
    AreComponents (fun before after => (before, after) ∈ tangle.numberedCalls)
        (List.range tangle.nodes.length) [[0], [3], [2, 1]] ∧
      (tangle.statistics 2).recursiveGroups = 2 := by
  refine ⟨areComponents_tangle, ?_⟩
  rw [(statistics_counts tangle 2).2.1 _ areComponents_tangle, numberedCalls_tangle]
  decide

end CallGraph

end CallContext
