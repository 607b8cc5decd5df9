import CallContext.CallGraph.Build
import CallContext.Proofs.CallGraph.Adjacency

/-!
A call graph and the log of what was added to it. Every graph is read off its log: callees and callers
are those of the calls of the log, each where it first comes up, the declared methods are its distinct
declarations in order, and a method is where the log first declares it. The graph of an index has the
log that goes through the methods of the index and lists each declaration before the calls of the method.
-/

namespace CallContext

open Collection Java

namespace Adjacency

def ofList (pairs : List (MethodId × MethodId)) : Adjacency :=
  pairs.foldl (fun adjacency pair => adjacency.link pair.1 pair.2) empty

theorem ofList_concat (pairs : List (MethodId × MethodId)) (last : MethodId × MethodId) :
    ofList (pairs ++ [last]) = (ofList pairs).link last.1 last.2 := by
  simp [ofList]

theorem of_ofList (pairs : List (MethodId × MethodId)) (id : MethodId) :
    (ofList pairs).of id = ((pairs.filter (·.1 = id)).map (·.2)).eraseDups := by
  induction pairs using List.reverseRecOn with
  | nil => rfl
  | append_singleton pairs last ih =>
      rw [ofList_concat, of_link, List.filter_append, List.map_append]
      by_cases here : id = last.1
      · subst here
        have added : ([last].filter (·.1 = last.1)).map (·.2) = [last.2] := by simp
        rw [if_pos rfl, ih, added, eraseDups_concat]
        simp only [List.mem_eraseDups]
      · have silent : [last].filter (·.1 = id) = [] := by simpa using Ne.symm here
        rw [if_neg here, ih, silent, List.map_nil, List.append_nil]

theorem ids_ofList (pairs : List (MethodId × MethodId)) :
    (ofList pairs).ids = (pairs.map (·.1)).eraseDups := by
  induction pairs using List.reverseRecOn with
  | nil => rfl
  | append_singleton pairs last ih =>
      rw [ofList_concat, ids, link, Table.keys_alter, ← ids, ih, List.map_append, List.map_singleton,
        eraseDups_concat]
      simp only [List.mem_eraseDups]

end Adjacency

inductive CallGraph.Entry where
  | declaration (id : MethodId) (location : Location)
  | call (caller callee : MethodId)
  deriving DecidableEq, Repr

namespace CallGraph

namespace Entry

def declaration? : Entry → Option (MethodId × Location)
  | .declaration id location => some (id, location)
  | .call .. => none

def call? : Entry → Option (MethodId × MethodId)
  | .declaration .. => none
  | .call caller callee => some (caller, callee)

def callsOf (log : List Entry) : List (MethodId × MethodId) :=
  log.filterMap call?

theorem callsOf_concat (log : List Entry) (last : Entry) :
    callsOf (log ++ [last]) = callsOf log ++ last.call?.toList := by
  cases last <;> simp [callsOf, call?]

end Entry

def record (graph : CallGraph) : Entry → CallGraph
  | .declaration id location => graph.register id location
  | .call caller callee => graph.addCall caller callee

def ofLog (log : List Entry) : CallGraph :=
  log.foldl record empty

theorem ofLog_concat (log : List Entry) (last : Entry) :
    ofLog (log ++ [last]) = (ofLog log).record last := by
  simp [ofLog]

theorem forward_ofLog (log : List Entry) :
    (ofLog log).forward = Adjacency.ofList (Entry.callsOf log) := by
  induction log using List.reverseRecOn with
  | nil => rfl
  | append_singleton log last ih =>
      rw [ofLog_concat, Entry.callsOf_concat]
      cases last with
      | declaration id location =>
          rw [Entry.call?, Option.toList_none, List.append_nil]
          exact ih
      | call caller callee =>
          rw [Entry.call?, Option.toList_some, Adjacency.ofList_concat, ← ih]
          rfl

theorem backward_ofLog (log : List Entry) :
    (ofLog log).backward = Adjacency.ofList ((Entry.callsOf log).map Prod.swap) := by
  induction log using List.reverseRecOn with
  | nil => rfl
  | append_singleton log last ih =>
      rw [ofLog_concat, Entry.callsOf_concat, List.map_append]
      cases last with
      | declaration id location =>
          rw [Entry.call?, Option.toList_none, List.map_nil, List.append_nil]
          exact ih
      | call caller callee =>
          rw [Entry.call?, Option.toList_some, List.map_singleton, Adjacency.ofList_concat, ← ih]
          rfl

theorem callees_ofLog (log : List Entry) (id : MethodId) : (ofLog log).callees id =
    (((Entry.callsOf log).filter (·.1 = id)).map (·.2)).eraseDups := by
  rw [callees, forward_ofLog, Adjacency.of_ofList]

theorem callers_ofLog (log : List Entry) (id : MethodId) : (ofLog log).callers id =
    (((Entry.callsOf log).filter (·.2 = id)).map (·.1)).eraseDups := by
  rw [callers, backward_ofLog, Adjacency.of_ofList, List.filter_map, List.map_map]
  rfl

theorem sources_ofLog (log : List Entry) :
    (ofLog log).sources = ((Entry.callsOf log).map (·.1)).eraseDups := by
  rw [sources, forward_ofLog, Adjacency.ids_ofList]

theorem targets_ofLog (log : List Entry) :
    (ofLog log).targets = ((Entry.callsOf log).map (·.2)).eraseDups := by
  rw [targets, backward_ofLog, Adjacency.ids_ofList, List.map_map]
  rfl

theorem mem_edges_ofLog (log : List Entry) (call : MethodId × MethodId) :
    call ∈ (ofLog log).edges ↔ call ∈ Entry.callsOf log := by
  obtain ⟨caller, callee⟩ := call
  rw [← mem_callees, callees_ofLog, List.mem_eraseDups, List.mem_map]
  constructor
  · rintro ⟨⟨_, _⟩, listed, rfl⟩
    obtain ⟨made, named⟩ := List.mem_filter.mp listed
    rwa [← of_decide_eq_true named]
  · intro made
    exact ⟨(caller, callee), List.mem_filter.mpr ⟨made, decide_eq_true rfl⟩, rfl⟩

theorem locations_ofLog (log : List Entry) :
    (ofLog log).locations = Table.ofList (log.filterMap Entry.declaration?) := by
  induction log using List.reverseRecOn with
  | nil => rfl
  | append_singleton log last ih =>
      rw [ofLog_concat, List.filterMap_append]
      cases last with
      | declaration id location =>
          have last : [Entry.declaration id location].filterMap Entry.declaration? =
              [(id, location)] := rfl
          rw [record, register, last, Table.ofList_concat, ← ih]
      | call caller callee =>
          have silent : [Entry.call caller callee].filterMap Entry.declaration? = [] := rfl
          rw [silent, List.append_nil]
          exact ih

theorem keys_ofLog (log : List Entry) :
    (ofLog log).locations.keys = ((log.filterMap Entry.declaration?).map (·.1)).eraseDups := by
  rw [locations_ofLog, Table.keys_ofList]

theorem location_ofLog (log : List Entry) (id : MethodId) :
    (ofLog log).location id = ((log.filterMap Entry.declaration?).find? (·.1 = id)).map (·.2) := by
  rw [location, locations_ofLog, Table.get?_ofList]

end CallGraph

namespace SourceIndex

def scopeLog (index : SourceIndex) (resolver : Resolver) (policy : OverloadPolicy) (scope : Scope) :
    List CallGraph.Entry :=
  .declaration (scope.id policy) scope.location ::
    (index.targetsIn resolver scope).map (.call (scope.id policy))

def log (index : SourceIndex) (resolver : Resolver) (policy : OverloadPolicy) :
    List CallGraph.Entry :=
  index.scopes.flatMap (index.scopeLog resolver policy)

def resolvedCalls (index : SourceIndex) (resolver : Resolver) (policy : OverloadPolicy) :
    List (MethodId × MethodId) :=
  index.scopes.flatMap fun scope =>
    (index.targetsIn resolver scope).map fun callee => (scope.id policy, callee)

theorem calls_scopeLog (index : SourceIndex) (resolver : Resolver) (policy : OverloadPolicy)
    (scope : Scope) :
    CallGraph.Entry.callsOf (index.scopeLog resolver policy scope) =
      (index.targetsIn resolver scope).map fun callee => (scope.id policy, callee) := by
  simp [scopeLog, CallGraph.Entry.callsOf, List.filterMap_cons, List.filterMap_map, Function.comp_def,
    CallGraph.Entry.call?]

theorem declarations_scopeLog (index : SourceIndex) (resolver : Resolver) (policy : OverloadPolicy)
    (scope : Scope) :
    (index.scopeLog resolver policy scope).filterMap CallGraph.Entry.declaration? =
      [(scope.id policy, scope.location)] := by
  simp [scopeLog, List.filterMap_map, Function.comp_def, CallGraph.Entry.declaration?]

theorem calls_log (index : SourceIndex) (resolver : Resolver) (policy : OverloadPolicy) :
    CallGraph.Entry.callsOf (index.log resolver policy) = index.resolvedCalls resolver policy := by
  simp only [← calls_scopeLog, resolvedCalls, log, CallGraph.Entry.callsOf, List.filterMap_flatMap]

theorem declarations_log (index : SourceIndex) (resolver : Resolver) (policy : OverloadPolicy) :
    (index.log resolver policy).filterMap CallGraph.Entry.declaration? =
      index.scopes.map fun scope => (scope.id policy, scope.location) := by
  simp only [log, List.filterMap_flatMap, declarations_scopeLog, List.map_eq_flatMap]

end SourceIndex

namespace CallGraph

variable (index : SourceIndex) (resolver : Resolver) (policy : OverloadPolicy)

theorem addScope_eq_foldl (graph : CallGraph) (scope : Scope) :
    addScope index resolver policy graph scope =
      (index.scopeLog resolver policy scope).foldl record graph := by
  simp [addScope, SourceIndex.scopeLog, List.foldl_map, record]

theorem build_eq_ofLog : build index resolver policy = ofLog (index.log resolver policy) := by
  rw [build, ofLog, SourceIndex.log, List.foldl_flatMap]
  congr 1
  funext graph scope
  exact addScope_eq_foldl index resolver policy graph scope

theorem mem_edges_build_iff_resolved (call : MethodId × MethodId) :
    call ∈ (build index resolver policy).edges ↔ call ∈ index.resolvedCalls resolver policy := by
  rw [build_eq_ofLog, mem_edges_ofLog, SourceIndex.calls_log]

theorem keys_build :
    (build index resolver policy).locations.keys =
      (index.scopes.map (·.id policy)).eraseDups := by
  rw [build_eq_ofLog, keys_ofLog, SourceIndex.declarations_log, List.map_map]
  rfl

theorem location_build (id : MethodId) :
    (build index resolver policy).location id =
      (index.scopes.find? (·.id policy = id)).map Scope.location := by
  rw [build_eq_ofLog, location_ofLog, SourceIndex.declarations_log, List.find?_map, Option.map_map]
  rfl

end CallGraph

end CallContext
