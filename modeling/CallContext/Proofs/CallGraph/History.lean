import CallContext.Proofs.CallGraph.Adjacency
import CallContext.Proofs.CallGraph.Log

/-!
Every view of a call graph can be read off the log of what was added to it. Callees, callers and places
go by the first entry that names them, each call counts once at either of its ends, and the methods are
the declared ones, then those that the log first names as callers, then those that it only calls.
-/

namespace CallContext.CallGraph

open Collection

namespace Entry

def declaredIn (log : List Entry) : List MethodId :=
  ((log.filterMap declaration?).map (·.1)).eraseDups

theorem mem_declaredIn (log : List Entry) (id : MethodId) :
    id ∈ declaredIn log ↔ ∃ location, declaration id location ∈ log := by
  simp only [declaredIn, List.mem_eraseDups, List.mem_map, List.mem_filterMap]
  constructor
  · rintro ⟨⟨_, location⟩, ⟨entry, member, shown⟩, rfl⟩
    cases entry with
    | declaration other place =>
        obtain ⟨rfl, rfl⟩ := Prod.mk.inj (Option.some.inj shown)
        exact ⟨place, member⟩
    | call => simp [declaration?] at shown
  · rintro ⟨location, member⟩
    exact ⟨(id, location), ⟨_, member, rfl⟩, rfl⟩

end Entry

open Entry

section

variable (graph : CallGraph)

theorem nodes_eq_append : graph.nodes = graph.locations.keys ++
    graph.sources.filter (· ∉ graph.locations.keys) ++
    graph.targets.filter (fun id => id ∉ graph.locations.keys ∧ id ∉ graph.sources) := by
  have declared : graph.locations.keys.eraseDups = graph.locations.keys :=
    eraseDups_of_nodup graph.locations.nodup
  have calling : graph.sources.eraseDups = graph.sources :=
    eraseDups_of_nodup graph.forward.nodup_ids
  have called : graph.targets.eraseDups = graph.targets :=
    eraseDups_of_nodup graph.backward.nodup_ids
  rw [nodes, eraseDups_append_filter, eraseDups_append_filter, eraseDups_filter, eraseDups_filter,
    declared, calling, called]
  simp [not_or]

theorem mem_nodes (id : MethodId) : id ∈ graph.nodes ↔ id ∈ graph.locations.keys ∨
    (∃ callee, (id, callee) ∈ graph.edges) ∨ ∃ caller, (caller, id) ∈ graph.edges := by
  rw [nodes, List.mem_eraseDups, List.append_assoc, List.mem_append, List.mem_append, mem_sources,
    mem_targets]

theorem isEmpty_iff_nodes_eq_nil : graph.isEmpty ↔ graph.nodes = [] := by
  have listed : graph.nodes = [] ↔ graph.locations.keys ++ graph.sources ++ graph.targets = [] := by
    simp only [List.eq_nil_iff_forall_not_mem, nodes, List.mem_eraseDups]
  have uncalled (idle : graph.sources = []) : graph.targets = [] := by
    refine List.eq_nil_iff_forall_not_mem.mpr fun id called => ?_
    obtain ⟨caller, made⟩ := (graph.mem_targets id).mp called
    have calling := (graph.mem_sources caller).mpr ⟨id, made⟩
    rw [idle] at calling
    exact List.not_mem_nil calling
  rw [listed, List.append_eq_nil_iff, List.append_eq_nil_iff, isEmpty, Bool.and_eq_true,
    Table.isEmpty_iff, Table.isEmpty_iff]
  exact (and_iff_left_of_imp fun idle => uncalled idle.2).symm

theorem isNew_iff (id : MethodId) : graph.isNew id ↔ id ∉ graph.locations.keys := by
  rw [mem_keys, isNew, Option.isNone_iff_eq_none, Option.not_isSome_iff_eq_none]

theorem methodCount_register (id : MethodId) (location : Location) :
    (graph.register id location).methodCount =
      graph.methodCount + if graph.isNew id then 1 else 0 := by
  have size (table : Table MethodId Location) : table.size = table.keys.length := by
    simp [Table.size, Table.keys]
  simp only [methodCount, size, register, Table.keys_insertNew, isNew_iff]
  split_ifs with known
  · rfl
  · rw [List.length_append, List.length_singleton]

end

/-- A graph as the history of its entries determines it. -/
theorem ofLog_exact (log : List Entry) :
    let graph := ofLog log
    let calls := callsOf log
    let declared := declaredIn log
    let calling := (calls.map (·.1)).eraseDups
    let called := (calls.map (·.2)).eraseDups
    (∀ id, graph.callees id = ((calls.filter (·.1 = id)).map (·.2)).eraseDups) ∧
    (∀ id, graph.callers id = ((calls.filter (·.2 = id)).map (·.1)).eraseDups) ∧
    (∀ caller callee, callee ∈ graph.callees caller ↔ caller ∈ graph.callers callee) ∧
    (∀ id, graph.location id =
      ((log.filterMap Entry.declaration?).find? (·.1 = id)).map (·.2)) ∧
    (∀ id, graph.isNew id ↔ ∀ location, Entry.declaration id location ∉ log) ∧
    (∀ id location, (graph.register id location).methodCount =
      graph.methodCount + if graph.isNew id then 1 else 0) ∧
    graph.edgeCount = calls.eraseDups.length ∧
    graph.edgeCount = (graph.fanOuts.map (·.2)).sum ∧
    graph.edgeCount = (graph.fanIns.map (·.2)).sum ∧
    graph.nodes = declared ++ calling.filter (· ∉ declared) ++
      called.filter (fun id => id ∉ declared ∧ id ∉ calling) ∧
    graph.nodes.Nodup ∧
    (graph.isEmpty ↔ graph.nodes = []) := by
  intro graph calls declared calling called
  refine ⟨callees_ofLog log, callers_ofLog log, fun caller callee => ?_, location_ofLog log,
    fun id => ?_, graph.methodCount_register, ?_, graph.sum_fanOuts.symm, graph.sum_fanIns.symm, ?_,
    nodup_eraseDups _, graph.isEmpty_iff_nodes_eq_nil⟩
  · rw [mem_callees, mem_callers]
  · rw [isNew_iff, keys_ofLog, ← declaredIn, mem_declaredIn, not_exists]
  · have same : graph.edges.Perm calls.eraseDups := by
      refine (List.perm_ext_iff_of_nodup graph.nodup_edges (nodup_eraseDups _)).mpr fun call => ?_
      rw [mem_edges_ofLog, List.mem_eraseDups]
    rw [edgeCount_eq_length_edges, same.length_eq]
  · rw [nodes_eq_append, keys_ofLog, sources_ofLog, targets_ofLog]
    rfl

example :
    let run : MethodId := ⟨"T", "run", none⟩
    let stop : MethodId := ⟨"T", "stop", none⟩
    let graph := ofLog [.call run run, .call run stop, .call run run, .declaration stop ⟨"T.java", 3⟩,
      .declaration stop ⟨"U.java", 9⟩]
    graph.callees run = [run, stop] ∧ graph.callers run = [run] ∧ graph.edgeCount = 2 ∧
      graph.location stop = some ⟨"T.java", 3⟩ ∧ graph.nodes = [stop, run] := by
  decide

end CallContext.CallGraph
