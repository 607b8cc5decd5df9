import Mathlib.Data.List.Basic
import Mathlib.Data.List.Nodup
import Mathlib.Data.List.Induction
import Mathlib.Data.List.Perm.Subperm
import Mathlib.Data.Set.Card
import CallContext.Collection.Distinct

/-!
First occurrences. `List.eraseDups` is how every list without repetition is built here, so these are
the laws by which it passes through the operations on lists. All of them go by the last item.
-/

namespace CallContext.Collection

variable {α β : Type} [BEq α] [LawfulBEq α] [BEq β] [LawfulBEq β]

theorem eraseDups_append_filter (before after : List α) :
    (before ++ after).eraseDups = before.eraseDups ++ (after.filter (· ∉ before)).eraseDups := by
  rw [List.eraseDups_append]
  congr 2
  simp [List.removeAll]

theorem eraseDups_concat (items : List α) (last : α) :
    (items ++ [last]).eraseDups =
      if last ∈ items then items.eraseDups else items.eraseDups ++ [last] := by
  by_cases member : last ∈ items <;> simp [eraseDups_append_filter, member, List.eraseDups_cons]

theorem length_eraseDups_le (items : List α) : items.eraseDups.length ≤ items.length :=
  ((nodup_eraseDups items).subperm fun _ member => List.mem_eraseDups.mp member).length_le

theorem eraseDups_of_nodup {items : List α} (nodup : items.Nodup) : items.eraseDups = items := by
  induction items using List.reverseRecOn with
  | nil => simp
  | append_singleton items last ih =>
      obtain ⟨initial, -, apart⟩ := List.nodup_append.mp nodup
      have fresh : last ∉ items := fun member => apart last member last (by simp) rfl
      rw [eraseDups_concat, if_neg fresh, ih initial]

theorem eraseDups_filter (p : α → Bool) (items : List α) :
    (items.filter p).eraseDups = items.eraseDups.filter p := by
  induction items using List.reverseRecOn with
  | nil => simp
  | append_singleton items last ih =>
      rw [List.filter_append, eraseDups_concat]
      by_cases kept : p last
      · by_cases member : last ∈ items <;> simp [eraseDups_concat, kept, member, ih]
      · by_cases member : last ∈ items <;> simp [kept, member, ih]

theorem eraseDups_map (f : α → β) (items : List α) :
    (items.eraseDups.map f).eraseDups = (items.map f).eraseDups := by
  induction items using List.reverseRecOn with
  | nil => simp
  | append_singleton items last ih =>
      rw [eraseDups_concat, List.map_append, List.map_singleton, eraseDups_concat]
      split_ifs with member image image
      · exact ih
      · exact absurd (List.mem_map_of_mem member) image
      · rw [List.map_append, List.map_singleton, eraseDups_concat, if_pos, ih]
        simpa [List.mem_eraseDups] using image
      · rw [List.map_append, List.map_singleton, eraseDups_concat, if_neg, ih]
        simpa [List.mem_eraseDups] using image

theorem find?_eraseDups (p : α → Bool) (items : List α) :
    items.eraseDups.find? p = items.find? p := by
  induction items using List.reverseRecOn with
  | nil => simp
  | append_singleton items last ih =>
      rw [eraseDups_concat, List.find?_append]
      split_ifs with member
      · by_cases found : p last
        · have exists_first : (items.find? p).isSome := List.find?_isSome.mpr ⟨last, member, found⟩
          obtain ⟨first, located⟩ := Option.isSome_iff_exists.mp exists_first
          rw [ih, located, Option.some_or]
        · simp [ih, found]
      · rw [List.find?_append, ih]

theorem eraseDups_eq_singleton {items : List α} {only : α} (some : items ≠ [])
    (same : ∀ item ∈ items, item = only) : items.eraseDups = [only] := by
  cases items with
  | nil => exact absurd rfl some
  | cons first rest =>
      obtain rfl := same first (by simp)
      have none : (rest.filter fun item => !item == first) = [] := by
        rw [List.filter_eq_nil_iff]
        intro item member
        simp [same item (by simp [member])]
      rw [List.eraseDups_cons, none, List.eraseDups_nil]

theorem eraseDups_append_of_subset {before after : List α}
    (known : ∀ item ∈ after, item ∈ before) :
    (before ++ after).eraseDups = before.eraseDups := by
  have none : after.filter (· ∉ before) = [] := by
    rw [List.filter_eq_nil_iff]
    intro item member
    simpa using known item member
  rw [eraseDups_append_filter, none, List.eraseDups_nil, List.append_nil]

theorem mem_iff_of_eraseDups_eq {items others : List α} (same : items.eraseDups = others.eraseDups)
    (item : α) : item ∈ items ↔ item ∈ others := by
  rw [← List.mem_eraseDups, same, List.mem_eraseDups]

theorem eraseDups_append_congr {before before' after after' : List α}
    (left : before.eraseDups = before'.eraseDups) (right : after.eraseDups = after'.eraseDups) :
    (before ++ after).eraseDups = (before' ++ after').eraseDups := by
  simp only [eraseDups_append_filter, eraseDups_filter, left, right,
    mem_iff_of_eraseDups_eq left]

theorem eraseDups_flatMap_congr {γ : Type} {f g : γ → List α} {items : List γ}
    (same : ∀ item ∈ items, (f item).eraseDups = (g item).eraseDups) :
    (items.flatMap f).eraseDups = (items.flatMap g).eraseDups := by
  induction items with
  | nil => simp
  | cons first rest ih =>
      rw [List.flatMap_cons, List.flatMap_cons]
      exact eraseDups_append_congr (same first (by simp))
        (ih fun item member => same item (by simp [member]))

theorem find?_eq_some_of_imp {γ : Type} {p q : γ → Bool} {items : List γ} {item : γ}
    (found : items.find? p = some item) (weaker : ∀ other, q other → p other) (holds : q item) :
    items.find? q = some item := by
  rw [List.find?_eq_some_iff_append] at found ⊢
  obtain ⟨-, before, after, split, earlier⟩ := found
  refine ⟨holds, before, after, split, fun other member => ?_⟩
  by_contra unlike
  have := earlier other member
  simp_all

theorem filter_eq_singleton_iff {γ : Type} {p : γ → Bool} {items : List γ} {only : γ}
    (nodup : items.Nodup) :
    items.filter p = [only] ↔ ∀ item, item ∈ items ∧ p item ↔ item = only := by
  constructor
  · intro single item
    rw [← List.mem_filter, single, List.mem_singleton]
  · intro same
    refine List.perm_singleton.mp ?_
    rw [List.perm_ext_iff_of_nodup (nodup.filter p) (List.nodup_singleton only)]
    intro item
    rw [List.mem_filter, same, List.mem_singleton]

theorem length_eq_ncard {γ : Type} {items : List γ} {set : Set γ} (nodup : items.Nodup)
    (listed : ∀ item, item ∈ items ↔ item ∈ set) : items.length = set.ncard := by
  classical
  have same : set = items.toFinset := by
    ext item
    rw [List.coe_toFinset, Set.mem_ofPred_eq, listed]
  rw [same, Set.ncard_coe_finset, List.toFinset_card_of_nodup nodup]

theorem le_length_filter_not_mem {items : List α} (nodup : items.Nodup) (known : List α) :
    items.length ≤ known.length + (items.filter (· ∉ known)).length := by
  have old : (items.filter (· ∈ known)).length ≤ known.length := by
    refine (List.Nodup.subperm (nodup.filter _) fun item member => ?_).length_le
    simpa using (List.mem_filter.mp member).2
  have split := List.length_eq_length_filter_add (l := items) (· ∈ known)
  simp only [← decide_not] at split
  omega

/-- A limited number of distinct items of a list in two parts: what the second part contributes can be
read off as many distinct items of it. -/
theorem take_eraseDups_append (n : Nat) (before after : List α) :
    (before ++ after).eraseDups.take n = before.eraseDups.take n ++
      ((after.eraseDups.take n).filter (· ∉ before)).take (n - before.eraseDups.length) := by
  rw [eraseDups_append_filter, eraseDups_filter, List.take_append]
  congr 1
  by_cases short : after.eraseDups.length ≤ n
  · rw [List.take_of_length_le short]
  · have enough : n ≤ before.eraseDups.length +
        ((after.eraseDups.take n).filter (· ∉ before.eraseDups)).length := by
      have bound := le_length_filter_not_mem
        ((nodup_eraseDups after).sublist (List.take_sublist n _)) before.eraseDups
      rw [List.length_take] at bound
      omega
    simp only [List.mem_eraseDups] at enough
    conv_lhs => rw [← List.take_append_drop n after.eraseDups, List.filter_append]
    rw [List.take_append_of_le_length (by omega)]

theorem take_eraseDups_append_congr {n : Nat} {before before' after after' : List α}
    (left : before.eraseDups.take n = before'.eraseDups.take n)
    (right : after.eraseDups.take n = after'.eraseDups.take n) :
    (before ++ after).eraseDups.take n = (before' ++ after').eraseDups.take n := by
  have lengths := congrArg List.length left
  simp only [List.length_take] at lengths
  rw [take_eraseDups_append, take_eraseDups_append, left, right]
  by_cases full : n ≤ before.eraseDups.length
  · rw [Nat.sub_eq_zero_of_le full, Nat.sub_eq_zero_of_le (by omega), List.take_zero, List.take_zero]
  · have same : before.eraseDups = before'.eraseDups := by
      rwa [List.take_of_length_le (by omega), List.take_of_length_le (by omega)] at left
    simp only [same, mem_iff_of_eraseDups_eq same]

theorem take_eraseDups_flatMap_congr {γ : Type} {n : Nat} {f g : γ → List α} {items : List γ}
    (same : ∀ item ∈ items, (f item).eraseDups.take n = (g item).eraseDups.take n) :
    (items.flatMap f).eraseDups.take n = (items.flatMap g).eraseDups.take n := by
  induction items with
  | nil => rfl
  | cons first rest ih =>
      rw [List.flatMap_cons, List.flatMap_cons]
      exact take_eraseDups_append_congr (same first (by simp))
        (ih fun item member => same item (by simp [member]))

theorem take_eraseDups_take (n : Nat) {items : List α} (nodup : items.Nodup) :
    (items.take n).eraseDups.take n = items.take n := by
  rw [eraseDups_of_nodup (nodup.sublist (List.take_sublist n _)), List.take_take, Nat.min_self]

end CallContext.Collection
