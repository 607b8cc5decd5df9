import CallContext.Text.Outline
import CallContext.Proofs.Text.Lines

namespace CallContext.Outline

open Text

def labels : Outline → List String
  | ⟨label, children⟩ => label :: children.flatMap labels

theorem labels_mk (label : String) (children : List Outline) :
    labels ⟨label, children⟩ = label :: children.flatMap labels := by
  rw [labels]

theorem clear_append {margin more : String} (clear : '\n' ∉ margin.toList)
    (clear' : '\n' ∉ more.toList) : '\n' ∉ (margin ++ more).toList := by
  rw [String.toList_append, List.mem_append, not_or]
  exact ⟨clear, clear'⟩

theorem drawAll_cons_cons (margin : String) (child second : Outline) (rest : List Outline) :
    drawAll margin (child :: second :: rest) =
      margin ++ "├─ " ++ child.drawAfter (margin ++ "│  ") ++ drawAll margin (second :: rest) := by
  rw [drawAll]
  exact nofun

mutual

theorem count_drawAfter (margin : String) (clear : '\n' ∉ margin.toList) :
    ∀ outline : Outline, (∀ label ∈ outline.labels, '\n' ∉ label.toList) →
      (outline.drawAfter margin).toList.count '\n' = outline.labels.length
  | ⟨label, children⟩, plain => by
      rw [labels_mk] at plain ⊢
      have own : label.toList.count '\n' = 0 :=
        List.count_eq_zero.mpr (plain label List.mem_cons_self)
      have ending : "\n".toList.count '\n' = 1 := by decide
      have onward := count_drawAll margin clear children fun other member =>
        plain other (List.mem_cons_of_mem label member)
      rw [drawAfter, String.toList_append, String.toList_append, List.count_append, List.count_append,
        own, ending, onward, List.length_cons]
      omega

theorem count_drawAll (margin : String) (clear : '\n' ∉ margin.toList) :
    ∀ children : List Outline, (∀ label ∈ children.flatMap labels, '\n' ∉ label.toList) →
      (drawAll margin children).toList.count '\n' = (children.flatMap labels).length
  | [], _ => rfl
  | [child], plain => by
      rw [List.flatMap_singleton] at plain ⊢
      have lead : (margin ++ "└─ ").toList.count '\n' = 0 :=
        List.count_eq_zero.mpr (clear_append clear (by decide))
      have only := count_drawAfter (margin ++ "   ") (clear_append clear (by decide)) child plain
      rw [drawAll, String.toList_append, List.count_append, lead, only, Nat.zero_add]
  | child :: second :: rest, plain => by
      rw [List.flatMap_cons] at plain ⊢
      have lead : (margin ++ "├─ ").toList.count '\n' = 0 :=
        List.count_eq_zero.mpr (clear_append clear (by decide))
      have first := count_drawAfter (margin ++ "│  ") (clear_append clear (by decide)) child
        fun label member => plain label (List.mem_append_left _ member)
      have others := count_drawAll margin clear (second :: rest)
        fun label member => plain label (List.mem_append_right _ member)
      rw [drawAll_cons_cons, String.toList_append, String.toList_append, List.count_append,
        List.count_append, lead, first, others, Nat.zero_add, List.length_append]

end

mutual

theorem getLast?_drawAfter (margin : String) :
    ∀ outline : Outline, (outline.drawAfter margin).toList.getLast? = some '\n'
  | ⟨label, children⟩ => by
      have ending : (label ++ "\n").toList.getLast? = some '\n' := by simp
      rw [drawAfter, String.toList_append, List.getLast?_append, ending]
      rcases getLast?_drawAll margin children with rfl | onward
      · rfl
      · rw [onward, Option.some_or]

theorem getLast?_drawAll (margin : String) :
    ∀ children : List Outline, children = [] ∨ (drawAll margin children).toList.getLast? = some '\n'
  | [] => .inl rfl
  | [child] => by
      right
      rw [drawAll, String.toList_append, List.getLast?_append, getLast?_drawAfter, Option.some_or]
  | child :: second :: rest => by
      right
      rw [drawAll_cons_cons, String.toList_append, List.getLast?_append]
      rcases getLast?_drawAll margin (second :: rest) with none | others
      · cases none
      · rw [others, Option.some_or]

end

theorem length_lines_draw {outline : Outline}
    (plain : ∀ label ∈ outline.labels, '\n' ∉ label.toList) :
    (lines outline.draw.toList).length = outline.labels.length := by
  rw [draw, length_lines (getLast?_drawAfter "" outline)]
  exact count_drawAfter "" (by decide) outline plain

end CallContext.Outline
