import CallContext.Proofs.CallGraph.Groups
import CallContext.Proofs.MethodId
import Mathlib.Data.List.Sort

/-!
What the statistics count. Each number is that of the members of a set that the declared methods and the
calls determine, and the leading methods are the first of a list that a linear order sorts. So graphs that
declare the same methods and hold the same calls have the same statistics, however they came about.
-/

namespace CallContext

open Collection

namespace Statistics

theorem ranksBefore_iff {a b : MethodId × Nat} :
    ranksBefore a b ↔ b.2 < a.2 ∨ a.2 = b.2 ∧ (MethodId.compare a.1 b.1).isLE := by
  simp [ranksBefore]

theorem ranksBefore_trans (a b c : MethodId × Nat) (first : ranksBefore a b)
    (second : ranksBefore b c) : ranksBefore a c := by
  rw [ranksBefore_iff] at *
  obtain more | ⟨equal, le⟩ := first
  · left
    omega
  · obtain more | ⟨equal', le'⟩ := second
    · left
      omega
    · exact .inr ⟨equal.trans equal', Std.TransCmp.isLE_trans le le'⟩

theorem ranksBefore_total (a b : MethodId × Nat) : ranksBefore a b || ranksBefore b a := by
  rw [Bool.or_eq_true, ranksBefore_iff, ranksBefore_iff]
  obtain less | equal | more := Nat.lt_trichotomy b.2 a.2
  · exact .inl (.inl less)
  · obtain le | ge := MethodId.compare_total a.1 b.1
    · exact .inl (.inr ⟨equal.symm, le⟩)
    · exact .inr (.inr ⟨equal, ge⟩)
  · exact .inr (.inl more)

theorem ranksBefore_antisymm {a b : MethodId × Nat} (le : ranksBefore a b) (ge : ranksBefore b a) :
    a = b := by
  rw [ranksBefore_iff] at *
  obtain more | ⟨equal, le⟩ := le
  · omega
  · obtain more | ⟨-, ge⟩ := ge
    · omega
    · exact Prod.ext (MethodId.compare_antisymm le ge) equal

def IsLeading (partners : MethodId → Set MethodId) (top : Nat) (leading : List (MethodId × Nat)) :
    Prop :=
  ∃ ranked : List (MethodId × Nat), ranked.Nodup ∧ ranked.Pairwise (ranksBefore · ·) ∧
    (∀ id n, (id, n) ∈ ranked ↔ (partners id).Nonempty ∧ n = (partners id).ncard) ∧
    leading = ranked.take top

theorem IsLeading.unique {partners : MethodId → Set MethodId} {top : Nat}
    {leading others : List (MethodId × Nat)} (one : IsLeading partners top leading)
    (other : IsLeading partners top others) : leading = others := by
  obtain ⟨ranked, nodup, sorted, members, rfl⟩ := one
  obtain ⟨ranked', nodup', sorted', members', rfl⟩ := other
  have same : ranked.Perm ranked' := by
    rw [List.perm_ext_iff_of_nodup nodup nodup']
    rintro ⟨id, n⟩
    rw [members, members']
  rw [same.eq_of_pairwise (fun _ _ _ _ => ranksBefore_antisymm) sorted sorted']

theorem isLeading_leading {partners : MethodId → Set MethodId} {ids : List MethodId}
    {near : MethodId → List MethodId} (distinct : ids.Nodup)
    (listed : ∀ id, id ∈ ids ↔ (partners id).Nonempty)
    (counted : ∀ id, (near id).length = (partners id).ncard) (top : Nat) :
    IsLeading partners top (leading (ids.map fun id => (id, (near id).length)) top) := by
  refine ⟨_, ?_, List.pairwise_mergeSort ranksBefore_trans ranksBefore_total _, fun id n => ?_, rfl⟩
  · rw [List.nodup_mergeSort]
    exact distinct.map fun _ _ same => congrArg Prod.fst same
  · rw [List.mem_mergeSort, List.mem_map, ← listed, ← counted]
    constructor
    · rintro ⟨other, member, same⟩
      obtain ⟨rfl, rfl⟩ := Prod.mk.inj same
      exact ⟨member, rfl⟩
    · rintro ⟨member, rfl⟩
      exact ⟨id, member, rfl⟩

structure Summarizes (declared : Set MethodId) (calls : MethodId → MethodId → Prop) (top : Nat)
    (summary : Statistics) : Prop where
  methods : summary.methods = declared.ncard
  edges : summary.edges = {call : MethodId × MethodId | calls call.1 call.2}.ncard
  types : summary.types = (MethodId.owner '' declared).ncard
  callers : summary.callers = {id | ∃ callee, calls id callee}.ncard
  callees : summary.callees = {id | ∃ caller, calls caller id}.ncard
  external : summary.external =
    {id | id ∉ declared ∧ ((∃ callee, calls id callee) ∨ ∃ caller, calls caller id)}.ncard
  recursiveGroups : summary.recursiveGroups = {group | IsRecursiveGroup calls group}.ncard
  mostCalled : IsLeading (fun id => {caller | calls caller id}) top summary.mostCalled
  mostCalling : IsLeading (fun id => {callee | calls id callee}) top summary.mostCalling

theorem Summarizes.unique {declared : Set MethodId} {calls : MethodId → MethodId → Prop} {top : Nat}
    {summary other : Statistics} (one : Summarizes declared calls top summary)
    (another : Summarizes declared calls top other) : summary = other := by
  cases summary
  cases other
  rw [Statistics.mk.injEq]
  exact ⟨one.methods.trans another.methods.symm, one.edges.trans another.edges.symm,
    one.types.trans another.types.symm, one.callers.trans another.callers.symm,
    one.callees.trans another.callees.symm, one.external.trans another.external.symm,
    one.recursiveGroups.trans another.recursiveGroups.symm,
    one.mostCalled.unique another.mostCalled, one.mostCalling.unique another.mostCalling⟩

end Statistics

namespace CallGraph

open Statistics

variable (graph : CallGraph)

theorem summarizes_statistics (top : Nat) :
    Summarizes {id | (graph.location id).isSome} graph.Calls top (graph.statistics top) where
  methods := by
    have size : graph.methodCount = graph.locations.keys.length := by
      simp [methodCount, Table.size, Table.keys]
    exact size.trans (length_eq_ncard graph.locations.nodup graph.mem_keys)
  edges := graph.edgeCount_eq_length_edges.trans (length_eq_ncard graph.nodup_edges fun _ => Iff.rfl)
  types := by
    refine length_eq_ncard (nodup_eraseDups _) fun owner => ?_
    simp only [List.mem_eraseDups, List.mem_map, mem_keys, Set.mem_image, Set.mem_ofPred_eq]
  callers := by
    have size : graph.fanOuts.length = graph.sources.length := by
      simp [fanOuts_eq_map_sources]
    exact size.trans (length_eq_ncard graph.forward.nodup_ids graph.mem_sources)
  callees := by
    have size : graph.fanIns.length = graph.targets.length := by
      simp [fanIns_eq_map_targets]
    exact size.trans (length_eq_ncard graph.backward.nodup_ids graph.mem_targets)
  external := by
    refine length_eq_ncard ((nodup_eraseDups _).filter _) fun id => ?_
    simp only [List.mem_filter, mem_nodes, mem_keys, Option.isNone_iff_eq_none, Set.mem_ofPred_eq,
      ← Option.not_isSome_iff_eq_none, and_comm]
    exact and_congr_right fun undeclared => or_iff_right undeclared
  recursiveGroups := recursiveGroups_eq_ncard graph
  mostCalled := by
    have leading := isLeading_leading graph.backward.nodup_ids graph.mem_targets
      (fun id => length_eq_ncard (graph.nodup_callers id) fun caller => graph.mem_callers caller id) top
    rwa [← targets, ← fanIns_eq_map_targets] at leading
  mostCalling := by
    have leading := isLeading_leading graph.forward.nodup_ids graph.mem_sources
      (fun id => length_eq_ncard (graph.nodup_callees id) fun callee => graph.mem_callees id callee) top
    rwa [← sources, ← fanOuts_eq_map_sources] at leading

theorem location_ofLog_isSome_iff (log : List Entry) (id : MethodId) :
    ((ofLog log).location id).isSome ↔ ∃ location, Entry.declaration id location ∈ log := by
  rw [← mem_keys, keys_ofLog, ← Entry.declaredIn, Entry.mem_declaredIn]

theorem calls_ofLog_iff (log : List Entry) (caller callee : MethodId) :
    (ofLog log).Calls caller callee ↔ Entry.call caller callee ∈ log := by
  rw [Calls, mem_edges_ofLog, Entry.callsOf, List.mem_filterMap]
  constructor
  · rintro ⟨entry, member, shown⟩
    cases entry with
    | declaration => simp [Entry.call?] at shown
    | call =>
        obtain ⟨rfl, rfl⟩ := Prod.mk.inj (Option.some.inj shown)
        exact member
  · exact fun member => ⟨_, member, rfl⟩

/-- The statistics depend only on which methods a log declares and which calls it holds, and neither on the
order of its entries nor on how often they come. -/
theorem statistics_order_irrelevant {log other : List Entry}
    (declared : ∀ id, (∃ location, Entry.declaration id location ∈ log) ↔
      ∃ location, Entry.declaration id location ∈ other)
    (called : ∀ caller callee, Entry.call caller callee ∈ log ↔ Entry.call caller callee ∈ other)
    (top : Nat) : (ofLog log).statistics top = (ofLog other).statistics top := by
  have places : {id | ((ofLog log).location id).isSome} = {id | ((ofLog other).location id).isSome} := by
    ext id
    rw [Set.mem_ofPred_eq, Set.mem_ofPred_eq, location_ofLog_isSome_iff, location_ofLog_isSome_iff, declared]
  have calls : (ofLog log).Calls = (ofLog other).Calls := by
    funext caller callee
    rw [calls_ofLog_iff, calls_ofLog_iff, called]
  have summary := summarizes_statistics (ofLog log) top
  rw [places, calls] at summary
  exact summary.unique (summarizes_statistics (ofLog other) top)

def recursivePair : List Entry :=
  [.declaration ⟨"T", "ping", none⟩ ⟨"T.java", 1⟩, .declaration ⟨"T", "pong", none⟩ ⟨"T.java", 5⟩,
    .call ⟨"T", "ping", none⟩ ⟨"T", "pong", none⟩, .call ⟨"T", "ping", none⟩ ⟨"U", "log", none⟩,
    .call ⟨"T", "pong", none⟩ ⟨"T", "ping", none⟩]

theorem statistics_order_irrelevant_recursivePair :
    let log := recursivePair
    let other := recursivePair.reverse ++ .declaration ⟨"T", "ping", none⟩ ⟨"S.java", 8⟩ :: recursivePair
    ((∀ id, (∃ location, Entry.declaration id location ∈ log) ↔
        ∃ location, Entry.declaration id location ∈ other) ∧
      ∀ caller callee, Entry.call caller callee ∈ log ↔ Entry.call caller callee ∈ other) ∧
    (ofLog log).statistics 2 = (ofLog other).statistics 2 ∧
    (ofLog log).recursiveGroups = 1 ∧
    (ofLog log).fanIns =
      [(⟨"T", "pong", none⟩, 1), (⟨"U", "log", none⟩, 1), (⟨"T", "ping", none⟩, 1)] ∧
    (ofLog other).fanIns =
      [(⟨"T", "ping", none⟩, 1), (⟨"U", "log", none⟩, 1), (⟨"T", "pong", none⟩, 1)] := by
  intro log other
  have declared : ∀ id, (∃ location, Entry.declaration id location ∈ log) ↔
      ∃ location, Entry.declaration id location ∈ other := by
    intro id
    constructor
    · rintro ⟨location, member⟩
      exact ⟨location, List.mem_append_left _ (List.mem_reverse.mpr member)⟩
    · rintro ⟨location, member⟩
      simp only [other, List.mem_append, List.mem_reverse, List.mem_cons] at member
      obtain member | again | member := member
      · exact ⟨location, member⟩
      · obtain ⟨rfl, -⟩ := Entry.declaration.inj again
        exact ⟨⟨"T.java", 1⟩, List.mem_cons_self⟩
      · exact ⟨location, member⟩
  have called : ∀ caller callee, Entry.call caller callee ∈ log ↔ Entry.call caller callee ∈ other := by
    intro caller callee
    simp [log, other]
  exact ⟨⟨declared, called⟩, statistics_order_irrelevant declared called 2, by decide +kernel,
    by decide +kernel, by decide +kernel⟩

end CallGraph

end CallContext
