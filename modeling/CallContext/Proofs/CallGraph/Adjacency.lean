import CallContext.CallGraph
import CallContext.Proofs.Collection.Table

/-!
The views of a call graph hold the same calls. Calls are kept by caller and by callee, and either of the two
tables can be read off the other up to order: callees, callers, grouped edges and the numbers of calls are
those of one set of pairs.
-/

namespace CallContext

open Collection

namespace Adjacency

variable (adjacency : Adjacency)

theorem nodup_ids : adjacency.ids.Nodup :=
  adjacency.nodup

theorem nodup_of (id : MethodId) : (adjacency.of id).Nodup := by
  unfold of
  cases adjacency.get? id with
  | none => exact List.nodup_nil
  | some links => exact links.nodup

theorem mem_ids_iff_exists (id : MethodId) : id ∈ adjacency.ids ↔ ∃ other, other ∈ adjacency.of id := by
  rw [mem_ids]
  exact ⟨List.exists_mem_of_ne_nil _, fun ⟨_, linked⟩ => List.ne_nil_of_mem linked⟩

theorem of_eq_ids {id : MethodId} {links : Links} (listed : (id, links) ∈ adjacency.toList) :
    adjacency.of id = links.ids := by
  rw [of, Table.get?_eq_some_iff.mpr listed]
  rfl

theorem degrees_eq_map_ids :
    adjacency.degrees = adjacency.ids.map fun id => (id, (adjacency.of id).length) := by
  rw [degrees, ids, Table.keys, List.map_map]
  refine List.map_congr_left fun entry listed => ?_
  rw [Function.comp_apply, adjacency.of_eq_ids listed]

theorem pairs_eq_flatMap_ids :
    adjacency.pairs = adjacency.ids.flatMap fun id => (adjacency.of id).map fun other => (id, other) := by
  rw [pairs, ids, Table.keys, List.flatMap_map]
  refine List.flatMap_congr fun entry listed => ?_
  rw [adjacency.of_eq_ids listed]

theorem mem_pairs (id other : MethodId) : (id, other) ∈ adjacency.pairs ↔ other ∈ adjacency.of id := by
  simp only [pairs_eq_flatMap_ids, List.mem_flatMap, List.mem_map, Prod.mk.injEq]
  constructor
  · rintro ⟨_, -, _, linked, rfl, rfl⟩
    exact linked
  · intro linked
    exact ⟨id, (adjacency.mem_ids_iff_exists id).mpr ⟨other, linked⟩, other, linked, rfl, rfl⟩

theorem nodup_pairs : adjacency.pairs.Nodup := by
  rw [pairs_eq_flatMap_ids, List.nodup_flatMap]
  refine ⟨fun id _ => (adjacency.nodup_of id).map (Prod.mk_right_injective id), ?_⟩
  refine adjacency.nodup_ids.imp fun {id other} apart pair left right => apart ?_
  obtain ⟨_, -, rfl⟩ := List.mem_map.mp left
  obtain ⟨_, -, same⟩ := List.mem_map.mp right
  exact (congrArg Prod.fst same).symm

theorem size_eq_sum : adjacency.size = (adjacency.degrees.map (·.2)).sum := by
  rw [size, List.sum_eq_foldl, List.foldl_map]

theorem size_eq_length_pairs : adjacency.size = adjacency.pairs.length := by
  simp [size_eq_sum, degrees, pairs, List.length_flatMap, Function.comp_def]

end Adjacency

namespace CallGraph

variable (graph : CallGraph)

theorem mem_callees (caller callee : MethodId) :
    callee ∈ graph.callees caller ↔ (caller, callee) ∈ graph.edges :=
  (graph.forward.mem_pairs caller callee).symm

theorem mem_callers (caller callee : MethodId) :
    caller ∈ graph.callers callee ↔ (caller, callee) ∈ graph.edges :=
  (graph.mirror caller callee).symm.trans (graph.mem_callees caller callee)

theorem nodup_callees (id : MethodId) : (graph.callees id).Nodup :=
  graph.forward.nodup_of id

theorem nodup_callers (id : MethodId) : (graph.callers id).Nodup :=
  graph.backward.nodup_of id

theorem nodup_edges : graph.edges.Nodup :=
  graph.forward.nodup_pairs

theorem mem_sources (caller : MethodId) :
    caller ∈ graph.sources ↔ ∃ callee, (caller, callee) ∈ graph.edges := by
  simp only [← mem_callees]
  exact graph.forward.mem_ids_iff_exists caller

theorem mem_targets (callee : MethodId) :
    callee ∈ graph.targets ↔ ∃ caller, (caller, callee) ∈ graph.edges := by
  simp only [← mem_callers]
  exact graph.backward.mem_ids_iff_exists callee

theorem fanOuts_eq_map_sources :
    graph.fanOuts = graph.sources.map fun id => (id, (graph.callees id).length) :=
  graph.forward.degrees_eq_map_ids

theorem fanIns_eq_map_targets :
    graph.fanIns = graph.targets.map fun id => (id, (graph.callers id).length) :=
  graph.backward.degrees_eq_map_ids

theorem mem_keys (id : MethodId) : id ∈ graph.locations.keys ↔ (graph.location id).isSome :=
  graph.locations.mem_keys_iff id

theorem edgeCount_eq_length_edges : graph.edgeCount = graph.edges.length :=
  graph.forward.size_eq_length_pairs

theorem sum_fanOuts : (graph.fanOuts.map (·.2)).sum = graph.edgeCount :=
  graph.forward.size_eq_sum.symm

theorem sum_fanIns : (graph.fanIns.map (·.2)).sum = graph.edgeCount := by
  have turned : (graph.backward.pairs.map Prod.swap).Perm graph.edges := by
    refine (List.perm_ext_iff_of_nodup (graph.backward.nodup_pairs.map Prod.swap_injective)
      graph.nodup_edges).mpr fun ⟨caller, callee⟩ => ?_
    rw [← mem_callers, List.mem_map]
    constructor
    · rintro ⟨⟨_, _⟩, listed, same⟩
      obtain ⟨rfl, rfl⟩ := Prod.mk.inj same
      exact (graph.backward.mem_pairs _ _).mp listed
    · intro calling
      exact ⟨(callee, caller), (graph.backward.mem_pairs _ _).mpr calling, rfl⟩
  calc (graph.fanIns.map (·.2)).sum
      = graph.backward.size := graph.backward.size_eq_sum.symm
    _ = graph.backward.pairs.length := graph.backward.size_eq_length_pairs
    _ = graph.edges.length := by rw [← turned.length_eq, List.length_map]
    _ = graph.edgeCount := graph.edgeCount_eq_length_edges.symm

def IsClosed : Prop :=
  ∀ call ∈ graph.edges, (graph.location call.1).isSome ∧ (graph.location call.2).isSome

variable {graph}

theorem IsClosed.nodes_eq (closed : graph.IsClosed) : graph.nodes = graph.locations.keys := by
  have known : ∀ id ∈ graph.sources ++ graph.targets, id ∈ graph.locations.keys := by
    intro id member
    rw [mem_keys]
    rcases List.mem_append.mp member with calling | called
    · obtain ⟨callee, made⟩ := (graph.mem_sources id).mp calling
      exact (closed _ made).1
    · obtain ⟨caller, made⟩ := (graph.mem_targets id).mp called
      exact (closed _ made).2
  rw [nodes, List.append_assoc, eraseDups_append_of_subset known]
  exact eraseDups_of_nodup graph.locations.nodup

end CallGraph

end CallContext
