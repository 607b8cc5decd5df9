import Mathlib.Data.List.Basic
import CallContext.Text.Cut
import CallContext.Text.Lines

namespace CallContext.Text

variable {mark : Char} {text before after : List Char}

theorem cutFirst_eq_some (found : cutFirst mark text = some (before, after)) :
    text = before ++ mark :: after ∧ mark ∉ before := by
  induction text generalizing before with
  | nil => cases found
  | cons c rest ih =>
      rw [cutFirst] at found
      split_ifs at found with here
      · obtain ⟨rfl, rfl⟩ := Prod.mk.inj (Option.some.inj found)
        exact ⟨by rw [here, List.nil_append], List.not_mem_nil⟩
      · obtain ⟨⟨head, tail⟩, later, same⟩ := Option.map_eq_some_iff.mp found
        obtain ⟨rfl, rfl⟩ := Prod.mk.inj same
        obtain ⟨split, absent⟩ := ih later
        refine ⟨by rw [split, List.cons_append], ?_⟩
        rw [List.mem_cons, not_or]
        exact ⟨Ne.symm here, absent⟩

theorem cutFirst_eq_none_iff : cutFirst mark text = none ↔ mark ∉ text := by
  induction text with
  | nil => simp [cutFirst]
  | cons c rest ih =>
      rw [cutFirst]
      split_ifs with here
      · simp [here]
      · rw [Option.map_eq_none_iff, ih, List.mem_cons, not_or]
        exact (and_iff_right fun equal => here equal.symm).symm

theorem cutFirst_append (absent : mark ∉ before) (after : List Char) :
    cutFirst mark (before ++ mark :: after) = some (before, after) := by
  induction before with
  | nil => simp [cutFirst]
  | cons c rest ih =>
      obtain ⟨apart, absent⟩ := not_or.mp (List.mem_cons.not.mp absent)
      rw [List.cons_append, cutFirst, if_neg (Ne.symm apart), ih absent]
      rfl

theorem cutLast_eq_none_iff : cutLast mark text = none ↔ mark ∉ text := by
  induction text with
  | nil => simp [cutLast]
  | cons c rest ih =>
      rw [cutLast]
      cases found : cutLast mark rest with
      | some parts =>
          have inside : mark ∈ rest := by
            by_contra absent
            rw [ih.mpr absent] at found
            cases found
          simp [inside]
      | none =>
          have absent := ih.mp found
          by_cases here : c = mark
          · simp [here]
          · simp [here, absent, Ne.symm here]

theorem cutLast_eq_some (found : cutLast mark text = some (before, after)) :
    text = before ++ mark :: after ∧ mark ∉ after := by
  induction text generalizing before with
  | nil => cases found
  | cons c rest ih =>
      rw [cutLast] at found
      cases later : cutLast mark rest with
      | some parts =>
          obtain ⟨head, tail⟩ := parts
          simp only [later, Option.some.injEq, Prod.mk.injEq] at found
          obtain ⟨rfl, rfl⟩ := found
          obtain ⟨split, absent⟩ := ih later
          exact ⟨by rw [split, List.cons_append], absent⟩
      | none =>
          simp only [later] at found
          split_ifs at found with here
          obtain ⟨rfl, rfl⟩ := Prod.mk.inj (Option.some.inj found)
          exact ⟨by rw [here, List.nil_append], cutLast_eq_none_iff.mp later⟩

theorem dropStart?_append (start text : List Char) : dropStart? start (start ++ text) = some text := by
  induction start with
  | nil => rfl
  | cons s start ih => rw [List.cons_append, dropStart?, if_pos rfl, ih]

theorem dropEnd?_append (ending text : List Char) : dropEnd? ending (text ++ ending) = some text := by
  rw [dropEnd?, List.reverse_append, dropStart?_append, Option.map_some, List.reverse_reverse]

theorem dropStart?_eq_some {start text rest : List Char} (dropped : dropStart? start text = some rest) :
    text = start ++ rest := by
  induction start generalizing text with
  | nil => exact Option.some.inj dropped
  | cons s start ih =>
      cases text with
      | nil => cases dropped
      | cons c text =>
          rw [dropStart?] at dropped
          split_ifs at dropped with same
          rw [same, ih dropped, List.cons_append]

theorem dropEnd?_eq_some {ending text rest : List Char} (dropped : dropEnd? ending text = some rest) :
    text = rest ++ ending := by
  obtain ⟨backwards, found, rfl⟩ := Option.map_eq_some_iff.mp dropped
  rw [← List.reverse_inj, dropStart?_eq_some found, List.reverse_append, List.reverse_reverse]

theorem splitAt_ne_nil (text : List Char) : splitAt mark text ≠ [] := by
  cases text with
  | nil => simp [splitAt]
  | cons c rest =>
      rw [splitAt]
      split_ifs
      · simp
      · cases splitAt mark rest <;> simp

theorem splitAt_of_not_mem (absent : mark ∉ text) : splitAt mark text = [text] := by
  induction text with
  | nil => rfl
  | cons c rest ih =>
      obtain ⟨apart, absent⟩ := not_or.mp (List.mem_cons.not.mp absent)
      rw [splitAt, if_neg (Ne.symm apart), ih absent]

theorem splitAt_append (before after : List Char) :
    splitAt mark (before ++ mark :: after) = splitAt mark before ++ splitAt mark after := by
  induction before with
  | nil => simp [splitAt]
  | cons c rest ih =>
      rw [List.cons_append, splitAt, splitAt, ih]
      split_ifs
      · rfl
      · cases pieces : splitAt mark rest with
        | nil => exact absurd pieces (splitAt_ne_nil rest)
        | cons piece more => rfl

theorem intercalate_append {separator : List Char} {pieces others : List (List Char)}
    (some : pieces ≠ []) (more : others ≠ []) :
    separator.intercalate (pieces ++ others) =
      separator.intercalate pieces ++ separator ++ separator.intercalate others := by
  induction pieces with
  | nil => exact absurd rfl some
  | cons piece rest ih =>
      cases rest with
      | nil =>
          obtain ⟨other, last, rfl⟩ := List.exists_cons_of_ne_nil more
          simp
      | cons second rest =>
          rw [List.cons_append, List.cons_append, List.intercalate_cons_cons, ← List.cons_append,
            ih (by simp), List.intercalate_cons_cons]
          simp only [List.append_assoc]

theorem intercalate_splitAt (text : List Char) : [mark].intercalate (splitAt mark text) = text := by
  induction text with
  | nil => rfl
  | cons c rest ih =>
      obtain ⟨piece, pieces, split⟩ := List.exists_cons_of_ne_nil (@splitAt_ne_nil mark rest)
      rw [splitAt]
      split_ifs with here
      · rw [split, List.intercalate_cons_cons, ← split, ih, here]
        rfl
      · rw [split] at ih ⊢
        cases pieces with
        | nil => simpa using ih
        | cons second more => simpa [List.intercalate_cons_cons] using ih

theorem splitAt_suffix_iff {last : List Char} :
    splitAt mark last <:+ splitAt mark text ↔
      text = last ∨ ∃ before, text = before ++ mark :: last := by
  constructor
  · rintro ⟨front, split⟩
    have whole : [mark].intercalate (front ++ splitAt mark last) = text := by
      rw [split, intercalate_splitAt]
    by_cases first : front = []
    · rw [first, List.nil_append, intercalate_splitAt] at whole
      exact .inl whole.symm
    · rw [intercalate_append first (splitAt_ne_nil last), intercalate_splitAt] at whole
      exact .inr ⟨[mark].intercalate front, by rw [← whole, List.append_assoc, List.singleton_append]⟩
  · rintro (rfl | ⟨before, rfl⟩)
    · exact List.suffix_refl _
    · exact ⟨splitAt mark before, (splitAt_append before last).symm⟩

theorem splitAt_flatMap {lines : List (List Char)} (absent : ∀ line ∈ lines, mark ∉ line)
    (after : List Char) :
    splitAt mark (lines.flatMap (fun line => line ++ [mark]) ++ after) = lines ++ splitAt mark after := by
  induction lines with
  | nil => rfl
  | cons line rest ih =>
      rw [List.flatMap_cons, List.append_assoc, List.append_assoc, List.singleton_append, splitAt_append,
        splitAt_of_not_mem (absent line List.mem_cons_self),
        ih fun other member => absent other (List.mem_cons_of_mem _ member)]
      rfl

theorem toList_joinWith_cons (separator first : String) (rest : List String) :
    (joinWith separator (first :: rest)).toList =
      first.toList ++ rest.flatMap fun text => separator.toList ++ text.toList := by
  induction rest generalizing first with
  | nil => rw [joinWith, List.flatMap_nil, List.append_nil]
  | cons second rest ih =>
      rw [joinWith, String.toList_append, String.toList_append, ih, List.flatMap_cons,
        List.append_assoc, List.append_assoc]
      exact nofun

end CallContext.Text
