import CallContext.Proofs.Java.SourceFile
import CallContext.Proofs.Resolution.Candidates
import Mathlib.Data.Finset.Dedup

/-!
Calls of overloaded methods, where overloads are told apart. The target of a call lists one identity for
each declaration that the call can still mean. Two declarations of one type have the same identity if
their erased parameter types agree, and then the list repeats it.
-/

namespace CallContext

open Java

namespace Target

def IsExact (target : Target) : Prop :=
  ∃ id, target = .exact id

def IsAmbiguous (target : Target) : Prop :=
  ∃ ids, target = .ambiguous ids

theorem isExact_ofIds (ids : List MethodId) : (ofIds ids).IsExact ↔ ids.length = 1 := by
  match ids with
  | [] | [_] | _ :: _ :: _ => simp [ofIds, IsExact]

theorem isAmbiguous_ofIds {ids : List MethodId} (nonempty : ids ≠ []) :
    (ofIds ids).IsAmbiguous ↔ 2 ≤ ids.length := by
  match ids with
  | [] => exact absurd rfl nonempty
  | [_] | _ :: _ :: _ => simp [ofIds, IsAmbiguous]

end Target

namespace SourceIndex

theorem fitting_eq (found : List OwnedMethod) (arguments : Nat) :
    fitting found arguments =
      if found.any (·.method.accepts arguments) then found.filter (·.method.accepts arguments)
      else found := by
  have suits : found.any (·.method.accepts arguments) = true ↔
      found.filter (·.method.accepts arguments) ≠ [] := by
    simp only [List.any_eq_true, ne_eq, List.filter_eq_nil_iff, not_forall, not_not, exists_prop]
  unfold fitting
  split
  · rename_i noneSuits
    rw [if_neg (mt suits.mp (not_not.mpr noneSuits))]
  · rename_i someSuit
    rw [if_pos (suits.mpr someSuit)]

theorem IsOverloadSet.nodup_ids {index : SourceIndex} {name : String}
    {found chosen : List OwnedMethod} (group : index.IsOverloadSet name found)
    (within : chosen ⊆ found) :
    (chosen.map (OwnedMethod.id .distinguish)).Nodup ↔
      (chosen.map (·.method.parameterList)).Nodup := by
  obtain ⟨owner, alike⟩ : ∃ owner, ∀ one ∈ chosen,
      one.id .distinguish = ⟨owner, name, some one.method.parameterList⟩ := by
    cases chosen with
    | nil => exact ⟨"", by simp⟩
    | cons first rest =>
        refine ⟨first.owner, fun one member => ?_⟩
        rw [OwnedMethod.id, MethodId.declared, (group.declared (within member)).1,
          group.owner_eq (within member) (within List.mem_cons_self)]
  have injective :
      Function.Injective fun parameters => MethodId.mk owner name (some parameters) := by
    rintro left right ⟨⟩
    rfl
  rw [List.map_congr_left alike, ← List.nodup_map_iff injective, List.map_map]
  rfl

/-- The target of a call lists the identities of the declarations that accept the number of arguments, or
of all candidates if none does, once for each declaration. It is exact if there is one such declaration
and ambiguous if there are several. Where their parameter types differ nothing is listed twice, and then
it comes to the same to count the identities. -/
theorem distinguished_target (index : SourceIndex) (scope : Scope) (site : CallSite) :
    let found := index.candidates scope site
    let possible :=
      if found.any (·.method.accepts site.arguments) then
        found.filter (·.method.accepts site.arguments)
      else found
    match index.resolveCall .distinguish scope site with
    | none => found = []
    | some target =>
        found ≠ [] ∧ target.ids = possible.map (OwnedMethod.id .distinguish) ∧
        (target.IsExact ↔ possible.length = 1) ∧ (target.IsAmbiguous ↔ 2 ≤ possible.length) ∧
        (target.ids.Nodup ↔ (possible.map (·.method.parameterList)).Nodup) ∧
        (target.ids.Nodup →
          (target.IsExact ↔ target.ids.toFinset.card = 1) ∧
          (target.IsAmbiguous ↔ 2 ≤ target.ids.toFinset.card)) := by
  intro found possible
  have suited : fitting found site.arguments = possible := fitting_eq found site.arguments
  rw [resolveCall]
  by_cases empty : found = []
  · rw [show index.candidates scope site = [] from empty]
    exact empty
  have nonempty : possible.map (OwnedMethod.id .distinguish) ≠ [] := by
    rw [← suited]
    exact fun none => empty ((fitting_eq_nil_iff found site.arguments).mp (List.map_eq_nil_iff.mp none))
  have within : possible ⊆ found := suited ▸ fitting_subset found site.arguments
  rw [target_distinguish empty site.arguments, suited]
  have exactIff := Target.isExact_ofIds (possible.map (OwnedMethod.id .distinguish))
  have ambiguousIff := Target.isAmbiguous_ofIds nonempty
  rw [List.length_map] at exactIff ambiguousIff
  refine ⟨empty, Target.ids_ofIds _, exactIff, ambiguousIff, ?_⟩
  rw [Target.ids_ofIds]
  refine ⟨(index.candidates_isOverloadSet scope site).nodup_ids within, fun distinct => ?_⟩
  rw [List.toFinset_card_of_nodup distinct, List.length_map]
  exact ⟨exactIff, ambiguousIff⟩

def oneClass (text : String) : List SourceFile :=
  ((SourceFile.parse "A.java" text).toOption).toList

theorem isParsed_of_mem_oneClass {text : String} {file : SourceFile} (member : file ∈ oneClass text) :
    file.IsParsed :=
  SourceFile.isParsed_of_parse (SourceFile.parse_of_toOption (Option.mem_toList.mp member))

theorem ofFiles_oneClass (text : String) : ofFiles (oneClass text) = mk (oneClass text) := by
  unfold ofFiles oneClass
  cases (SourceFile.parse "A.java" text).toOption <;> simp

def byType : String :=
  "class A \x7b void f(int n) \x7b \x7d void f(String s) \x7b \x7d void run() \x7b f(1); \x7d \x7d"

theorem distinguished_target_byType :
    ∃ scope ∈ (ofFiles (oneClass byType)).scopes, ∃ site ∈ scope.method.calls, ∃ target,
      (ofFiles (oneClass byType)).resolveCall .distinguish scope site = some target ∧
      target.ids = [⟨"A", "f", some "int"⟩, ⟨"A", "f", some "String"⟩] ∧
      target.ids.Nodup ∧ target.IsAmbiguous := by
  have called : ∃ scope ∈ (SourceIndex.mk (oneClass byType)).scopes, ∃ site ∈ scope.method.calls,
      (SourceIndex.mk (oneClass byType)).resolveCall .distinguish scope site =
        some (.ambiguous [⟨"A", "f", some "int"⟩, ⟨"A", "f", some "String"⟩]) := by
    decide +kernel
  rw [← ofFiles_oneClass] at called
  obtain ⟨scope, declared, site, called, resolved⟩ := called
  have counted := distinguished_target (ofFiles (oneClass byType)) scope site
  rw [resolved] at counted
  have distinct :
      (Target.ambiguous [⟨"A", "f", some "int"⟩, ⟨"A", "f", some "String"⟩]).ids.Nodup := by decide
  exact ⟨scope, declared, site, called, _, resolved, rfl, distinct,
    (counted.2.2.2.2.2 distinct).2.mpr (by decide)⟩

def byBound : String :=
  "class A \x7b <T extends Number> void f(T t) \x7b \x7d <T extends Runnable> void f(T t) \x7b \x7d " ++
    "void run() \x7b f(1); \x7d \x7d"

theorem distinguished_target_repeats :
    ¬ ∀ files : List SourceFile, (∀ file ∈ files, file.IsParsed) →
      ∀ scope ∈ (ofFiles files).scopes, ∀ site ∈ scope.method.calls, ∀ target,
        (ofFiles files).resolveCall .distinguish scope site = some target →
        target.ids.Nodup ∧ (target.IsExact ↔ target.ids.toFinset.card = 1) := by
  intro counted
  have called : ∃ scope ∈ (SourceIndex.mk (oneClass byBound)).scopes, ∃ site ∈ scope.method.calls,
      (SourceIndex.mk (oneClass byBound)).resolveCall .distinguish scope site =
        some (.ambiguous [⟨"A", "f", some "T"⟩, ⟨"A", "f", some "T"⟩]) := by
    decide +kernel
  rw [← ofFiles_oneClass] at called
  obtain ⟨scope, declared, site, called, resolved⟩ := called
  have distinct := (counted (oneClass byBound) (fun _ => isParsed_of_mem_oneClass) scope declared site
    called _ resolved).1
  revert distinct
  decide

end SourceIndex

end CallContext
