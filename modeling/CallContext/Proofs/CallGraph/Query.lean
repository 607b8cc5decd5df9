import CallContext.CallGraph.Query
import CallContext.Proofs.Collection.Distinct
import CallContext.Proofs.MethodId.Key
import CallContext.Proofs.Name
import CallContext.Proofs.Text.Blank

namespace CallContext

open Text

theorem Collection.concat_suffix_concat_iff {α : Type} {items others : List α} {last other : α} :
    items ++ [last] <:+ others ++ [other] ↔ last = other ∧ items <:+ others := by
  simp [← List.reverse_prefix]

namespace MethodId

def segments (id : MethodId) : List String :=
  Name.segments id.owner ++ [id.name]

theorem ownedBy_iff {id : MethodId} {type : String} :
    id.ownedBy type ↔ Name.segments type <:+ Name.segments id.owner := by
  rw [ownedBy, Bool.or_eq_true, beq_iff_eq, Name.segments_suffix_iff]

theorem answers_iff_suffix {query : String} (plain : '#' ∉ query.toList) (id : MethodId) :
    id.answers query ↔ Name.segments query <:+ id.segments := by
  have unkeyed : query.toList.contains '#' = false := by simpa using plain
  rw [answers, unkeyed, segments]
  simp only [Bool.false_eq_true, if_false]
  cases cut : Name.splitLast query with
  | none =>
      rw [Name.segments_of_not_mem (Name.splitLast_eq_none cut), ← List.nil_append [query],
        Collection.concat_suffix_concat_iff, and_iff_left List.nil_suffix, beq_iff_eq, eq_comm]
  | some parts =>
      obtain ⟨type, name⟩ := parts
      rw [Name.segments_of_splitLast cut, Collection.concat_suffix_concat_iff, ← ownedBy_iff,
        Bool.and_eq_true, beq_iff_eq, eq_comm]

theorem meantBy_iff {id wanted : MethodId} :
    id.meantBy wanted ↔ id.owner = wanted.owner ∧ id.name = wanted.name ∧
      (wanted.parameters = none ∨ id.parameters = wanted.parameters) := by
  simp [meantBy, and_assoc]

theorem meantBy_iff_eq {id wanted : MethodId} (listed : wanted.parameters.isSome) :
    id.meantBy wanted ↔ id = wanted := by
  obtain ⟨owner, name, parameters⟩ := wanted
  obtain ⟨list, rfl⟩ := Option.isSome_iff_exists.mp listed
  cases id
  rw [meantBy_iff, mk.injEq]
  simp

theorem answers_key {id : MethodId} (keyed : id.IsKeyed) (other : MethodId) :
    other.answers id.key ↔ other.meantBy id := by
  have hash : id.key.toList.contains '#' := by simp [toList_key]
  rw [answers, if_pos hash, parseKey_eq_some_iff.mpr ⟨keyed, rfl⟩, Option.any_some]

end MethodId

namespace CallGraph

open Collection

theorem find_key (graph : CallGraph) {id : MethodId} (keyed : id.IsKeyed)
    (trimmed : IsTrimmed id.key.toList) :
    graph.find id.key = graph.nodes.filter (·.meantBy id) := by
  have same : Text.trimmed id.key = id.key := by
    rw [Text.trimmed, trim_eq_self_iff.mpr trimmed, String.ofList_toList]
  rw [find, same]
  exact List.filter_congr fun other _ => Bool.eq_iff_iff.mpr (MethodId.answers_key keyed other)

/-- A query without number sign finds the methods whose segments end with its own, in the order of the
graph. The key of a method finds that method alone if it has parameters, else all methods with its owner and
its name. -/
theorem find_exact (graph : CallGraph) :
    (∀ query : String, '#' ∉ (Text.trimmed query).toList →
      graph.find query = graph.nodes.filter fun id =>
        Name.segments (Text.trimmed query) <:+ Name.segments id.owner ++ [id.name]) ∧
    ∀ id ∈ graph.nodes, id.IsKeyed → IsTrimmed id.key.toList →
      id ∈ graph.find id.key ∧
      (∀ other ∈ graph.find id.key, other.owner = id.owner ∧ other.name = id.name) ∧
      (id.parameters.isSome → graph.find id.key = [id]) ∧
      (id.parameters = none → graph.find id.key =
        graph.nodes.filter fun other => other.owner = id.owner ∧ other.name = id.name) := by
  refine ⟨fun query plain => ?_, fun id node keyed trimmed => ?_⟩
  · refine List.filter_congr fun id _ => ?_
    rw [Bool.eq_iff_iff, MethodId.answers_iff_suffix plain, decide_eq_true_iff, MethodId.segments]
  · rw [find_key graph keyed trimmed]
    refine ⟨?_, ?_, ?_, ?_⟩
    · exact List.mem_filter.mpr ⟨node, MethodId.meantBy_iff.mpr ⟨rfl, rfl, .inr rfl⟩⟩
    · intro other found
      obtain ⟨owner, name, -⟩ := MethodId.meantBy_iff.mp (List.mem_filter.mp found).2
      exact ⟨owner, name⟩
    · intro listed
      refine (filter_eq_singleton_iff (nodup_eraseDups _)).mpr fun other => ?_
      rw [MethodId.meantBy_iff_eq listed]
      exact and_iff_right_of_imp fun same => same ▸ node
    · intro unlisted
      refine List.filter_congr fun other _ => ?_
      rw [Bool.eq_iff_iff, MethodId.meantBy_iff, decide_eq_true_iff]
      simp [unlisted]

def overloads : CallGraph :=
  ((empty.register ⟨"p.A", "run", some "int"⟩ ⟨"p/A.java", 2⟩).register ⟨"p.A", "run", some ""⟩
    ⟨"p/A.java", 4⟩).addCall ⟨"p.A", "run", some ""⟩ ⟨"q.BA", "run", none⟩

theorem find_exact_overloads :
    ('#' ∉ (Text.trimmed " A.run ").toList ∧
      overloads.find " A.run " = overloads.nodes.filter fun id =>
        Name.segments (Text.trimmed " A.run ") <:+ Name.segments id.owner ++ [id.name]) ∧
    (⟨"p.A", "run", some ""⟩ ∈ overloads.nodes ∧
      (⟨"p.A", "run", some ""⟩ : MethodId).IsKeyed ∧ IsTrimmed "p.A#run()".toList ∧
      overloads.find "p.A#run()" = [⟨"p.A", "run", some ""⟩]) := by
  have plain : '#' ∉ (Text.trimmed " A.run ").toList := by decide +kernel
  have node : ⟨"p.A", "run", some ""⟩ ∈ overloads.nodes := by decide +kernel
  have keyed : (⟨"p.A", "run", some ""⟩ : MethodId).IsKeyed := by decide +kernel
  have trimmed : IsTrimmed "p.A#run()".toList := by decide +kernel
  refine ⟨⟨plain, (find_exact overloads).1 " A.run " plain⟩, node, keyed, trimmed, ?_⟩
  exact ((find_exact overloads).2 _ node keyed trimmed).2.2.1 rfl

end CallGraph

end CallContext
