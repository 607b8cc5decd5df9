/-!
First occurrences. `List.eraseDups` keeps the first occurrence of every item, so no item stands twice in
what it leaves.
-/

namespace CallContext.Collection

theorem nodup_eraseDups {α : Type} [BEq α] [LawfulBEq α] (items : List α) :
    items.eraseDups.Nodup := by
  match items with
  | [] => simp
  | first :: rest =>
    rw [List.eraseDups_cons, List.nodup_cons]
    refine ⟨fun again => ?_, nodup_eraseDups _⟩
    have other := (List.mem_filter.mp (List.mem_eraseDups.mp again)).2
    simp at other
termination_by items.length
decreasing_by exact Nat.lt_succ_of_le (List.length_filter_le _ _)

end CallContext.Collection
