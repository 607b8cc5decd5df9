import Mathlib.Data.List.Sort
import Mathlib.Data.List.Nodup

namespace CallContext.Collection

variable {α : Type} (key : α → String)

def byKey (a b : α) : Bool :=
  key a ≤ key b

theorem byKey_trans (a b c : α) (first : byKey key a b) (second : byKey key b c) :
    byKey key a c := by
  simp only [byKey, decide_eq_true_eq] at *
  exact String.le_trans first second

theorem byKey_total (a b : α) : byKey key a b || byKey key b a := by
  simpa [byKey] using String.le_total (key a) (key b)

theorem pairwise_mergeSort_byKey (items : List α) :
    (items.mergeSort (byKey key)).Pairwise fun a b => key a ≤ key b := by
  have sorted := List.pairwise_mergeSort (byKey_trans key) (byKey_total key) items
  simpa [byKey] using sorted

theorem mergeSort_byKey_cons (first : α) (items : List α) :
    (first :: items).mergeSort (byKey key) =
      (items.mergeSort (byKey key)).filter (!byKey key first ·) ++
        first :: (items.mergeSort (byKey key)).filter (byKey key first ·) := by
  obtain ⟨before, after, whole, split, smaller⟩ :=
    List.mergeSort_cons (byKey_trans key) (byKey_total key) first items
  have sorted := List.pairwise_mergeSort (byKey_trans key) (byKey_total key) (first :: items)
  rw [whole] at sorted
  have larger : ∀ item ∈ after, byKey key first item :=
    (List.pairwise_cons.mp (List.pairwise_append.mp sorted).2.1).1
  have left : before.filter (!byKey key first ·) = before := List.filter_eq_self.mpr smaller
  have right : after.filter (byKey key first ·) = after := List.filter_eq_self.mpr larger
  have none : after.filter (!byKey key first ·) = [] := by
    refine List.filter_eq_nil_iff.mpr fun item member => ?_
    simp [larger item member]
  have none' : before.filter (byKey key first ·) = [] := by
    refine List.filter_eq_nil_iff.mpr fun item member => ?_
    simpa using smaller item member
  rw [whole, split, List.filter_append, List.filter_append, left, right, none, none', List.append_nil,
    List.nil_append]

theorem filter_mergeSort_byKey (p : α → Bool) (items : List α) :
    (items.mergeSort (byKey key)).filter p = (items.filter p).mergeSort (byKey key) := by
  induction items with
  | nil => simp
  | cons first rest ih =>
      by_cases kept : p first
      · have swap (q : α → Bool) (sorted : List α) :
            (sorted.filter q).filter p = (sorted.filter p).filter q := by
          simp only [List.filter_filter, Bool.and_comm]
        rw [List.filter_cons_of_pos kept, mergeSort_byKey_cons, mergeSort_byKey_cons, ← ih,
          List.filter_append, List.filter_cons_of_pos kept, swap, swap]
      · obtain ⟨before, after, whole, split, -⟩ :=
          List.mergeSort_cons (byKey_trans key) (byKey_total key) first rest
        rw [List.filter_cons_of_neg kept, ← ih, whole, split, List.filter_append, List.filter_append,
          List.filter_cons_of_neg kept]

theorem mergeSort_byKey_of_perm {items others : List α} (distinct : (items.map key).Nodup)
    (perm : items.Perm others) : items.mergeSort (byKey key) = others.mergeSort (byKey key) := by
  have same : (items.mergeSort (byKey key)).Perm (others.mergeSort (byKey key)) :=
    ((items.mergeSort_perm _).trans perm).trans (others.mergeSort_perm _).symm
  refine same.eq_of_pairwise (fun a b member member' le ge => ?_) (pairwise_mergeSort_byKey key items)
    (pairwise_mergeSort_byKey key others)
  have left : a ∈ items := List.mem_mergeSort.mp member
  have right : b ∈ items := perm.mem_iff.mpr (List.mem_mergeSort.mp member')
  exact List.inj_on_of_nodup_map distinct left right (String.le_antisymm le ge)

end CallContext.Collection
