import CallContext.Proofs.Text.Cut

namespace CallContext.Text

theorem length_splitAt (mark : Char) (text : List Char) :
    (splitAt mark text).length = text.count mark + 1 := by
  induction text with
  | nil => rfl
  | cons c rest ih =>
      rw [splitAt]
      split_ifs with here
      · rw [List.length_cons, ih, here, List.count_cons_self]
      · rw [List.count_cons_of_ne here, ← ih]
        cases pieces : splitAt mark rest with
        | nil => exact absurd pieces (splitAt_ne_nil rest)
        | cons piece more => rfl

theorem linesOf_append (pieces : List (List Char)) {more : List (List Char)} (some : more ≠ []) :
    linesOf (pieces ++ more) = pieces.map dropReturn ++ linesOf more := by
  induction pieces with
  | nil => rfl
  | cons piece rest ih =>
      rw [List.cons_append, linesOf, ih, List.map_cons, List.cons_append]
      simp [some]

theorem lines_append {before : List Char} (ends : before = [] ∨ before.getLast? = some '\n')
    (after : List Char) : lines (before ++ after) = lines before ++ lines after := by
  rcases ends with rfl | ended
  · rfl
  · obtain ⟨initial, rfl⟩ := List.getLast?_eq_some_iff.mp ended
    have nothing : splitAt '\n' [] = [[]] := rfl
    rw [List.append_assoc, List.singleton_append, lines, lines, lines, splitAt_append, splitAt_append,
      nothing, linesOf_append _ (splitAt_ne_nil after), linesOf_append _ (by simp)]
    simp [linesOf]

theorem dropReturn_eq_or (line : List Char) :
    dropReturn line = line ∨ line = dropReturn line ++ ['\r'] := by
  unfold dropReturn
  split
  · next before reversed =>
      right
      rw [← List.reverse_cons, ← reversed, List.reverse_reverse]
  · exact .inl rfl

theorem splitAt_append_of_not_mem {mark : Char} {before : List Char} (absent : mark ∉ before)
    {after piece : List Char} {more : List (List Char)} (split : splitAt mark after = piece :: more) :
    splitAt mark (before ++ after) = (before ++ piece) :: more := by
  induction before with
  | nil => exact split
  | cons c rest ih =>
      obtain ⟨apart, absent⟩ := not_or.mp (List.mem_cons.not.mp absent)
      rw [List.cons_append, splitAt, if_neg (Ne.symm apart), ih absent]
      rfl

theorem exists_lines_eq_cons {start text : List Char} (some : start ≠ []) (noFeed : '\n' ∉ start)
    (noReturn : '\r' ∉ start) (begins : start <+: text) :
    ∃ line rest, lines text = line :: rest ∧ start <+: line := by
  obtain ⟨after, rfl⟩ := begins
  have pieces : splitAt '\n' after ≠ [] := splitAt_ne_nil after
  obtain ⟨piece, more, split⟩ := List.exists_cons_of_ne_nil pieces
  rw [lines, splitAt_append_of_not_mem noFeed split]
  have prefixed : start <+: start ++ piece := List.prefix_append start piece
  cases more with
  | nil => exact ⟨start ++ piece, [], by simp [linesOf, some], prefixed⟩
  | cons second others =>
      refine ⟨dropReturn (start ++ piece), linesOf (second :: others), rfl, ?_⟩
      rcases dropReturn_eq_or (start ++ piece) with same | ends
      · rwa [same]
      · rw [ends] at prefixed
        rcases List.prefix_concat_iff.mp prefixed with whole | shorter
        · exact absurd (whole ▸ List.mem_append_right _ (List.mem_singleton_self '\r')) noReturn
        · exact shorter

theorem length_lines {text : List Char} (ends : text.getLast? = some '\n') :
    (lines text).length = text.count '\n' := by
  obtain ⟨before, rfl⟩ := List.getLast?_eq_some_iff.mp ends
  have nothing : splitAt '\n' [] = [[]] := rfl
  rw [lines, splitAt_append, nothing, linesOf_append _ (by simp), List.length_append, List.length_map,
    length_splitAt, List.count_append, List.count_singleton_self]
  rfl

theorem lines_feed_cons (rest : List Char) : lines ('\n' :: rest) = [] :: lines rest := by
  have ends : ['\n'].getLast? = some '\n' := rfl
  exact lines_append (.inr ends) rest

theorem length_lines_le_cons (c : Char) (rest : List Char) :
    (lines rest).length ≤ (lines (c :: rest)).length ∧ 0 < (lines (c :: rest)).length := by
  by_cases feed : c = '\n'
  · simp [feed, lines_feed_cons]
  · obtain ⟨piece, more, split⟩ := List.exists_cons_of_ne_nil (@splitAt_ne_nil '\n' rest)
    rw [lines, lines, splitAt, if_neg feed, split]
    cases more with
    | nil => cases piece <;> simp [linesOf]
    | cons second others => simp [linesOf]

theorem count_lt_length_lines (before : List Char) (c : Char) (after : List Char) :
    before.count '\n' < (lines (before ++ c :: after)).length := by
  induction before with
  | nil => exact (length_lines_le_cons c after).2
  | cons b before ih =>
      by_cases feed : b = '\n'
      · rw [feed, List.count_cons_self, List.cons_append, lines_feed_cons, List.length_cons]
        exact Nat.succ_lt_succ ih
      · rw [List.count_cons_of_ne feed]
        exact Nat.lt_of_lt_of_le ih (length_lines_le_cons b _).1

theorem isDigit_of_mem_toString {number : Nat} {c : Char} (member : c ∈ (toString number).toList) :
    c.isDigit := by
  rw [Nat.toString_eq_ofList_toDigits, String.toList_ofList] at member
  exact Nat.isDigit_of_mem_toDigits (by decide) (by decide) member

theorem newline_not_mem_toString (number : Nat) : '\n' ∉ (toString number).toList := by
  intro member
  exact absurd (isDigit_of_mem_toString member) (by decide)

end CallContext.Text
