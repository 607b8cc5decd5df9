import CallContext.MethodId

namespace CallContext.MethodId

open Std

theorem compareParameters_eq (a b : Option String) : compareParameters a b = compare a b := by
  cases a <;> cases b <;> rfl

theorem compare_eq_compareLex : MethodId.compare =
    compareLex (compareLex (compareOn owner) (compareOn name)) (compareOn parameters) := by
  funext a b
  simp only [MethodId.compare, compareLex, compareOn, compareParameters_eq]

instance : TransCmp MethodId.compare := by
  rw [compare_eq_compareLex]
  infer_instance

instance : LawfulEqCmp MethodId.compare where
  eq_of_compare {a b} equal := by
    simp only [MethodId.compare, compareParameters_eq, Ordering.then_eq_eq,
      LawfulEqOrd.compare_eq_iff_eq] at equal
    obtain ⟨⟨owner, name⟩, parameters⟩ := equal
    cases a
    cases b
    cases owner
    cases name
    cases parameters
    rfl

theorem compare_total (a b : MethodId) :
    (MethodId.compare a b).isLE ∨ (MethodId.compare b a).isLE := by
  by_cases le : (MethodId.compare a b).isLE
  · exact .inl le
  · exact .inr (by rw [OrientedCmp.lt_of_not_isLE le]; rfl)

theorem compare_antisymm {a b : MethodId} (le : (MethodId.compare a b).isLE)
    (ge : (MethodId.compare b a).isLE) : a = b :=
  LawfulEqCmp.eq_of_compare (OrientedCmp.isLE_antisymm le ge)

end CallContext.MethodId
