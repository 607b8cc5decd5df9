import CallContext.Java.Lexer
import CallContext.Proofs.Text.Lines

namespace CallContext.Java.Lexer

theorem lineFeeds_append (before after : List Char) :
    lineFeeds (before ++ after) = lineFeeds before + lineFeeds after :=
  List.count_append

theorem eq_of_drop_eq_cons {source rest : List Char} {c : Char} {gap : Nat}
    (left : source.drop gap = c :: rest) (more : Nat) :
    source = (source.take gap ++ c :: rest.take more) ++ rest.drop more := by
  rw [List.append_assoc, List.cons_append, List.take_append_drop, ← left, List.take_append_drop]

theorem line_of_mem_scan {frames : List Frame} {index line : Nat} {source : List Char} {token : Token}
    (member : token ∈ scan frames index line source) :
    ∃ before c after, source = before ++ c :: after ∧ token.line = line + lineFeeds before := by
  fun_induction scan frames index line source with
  | case1 => cases member
  | case2 frames index line source gap c rest left found skipped text first last ih =>
      rcases List.mem_cons.mp member with rfl | later
      · refine ⟨skipped, c, rest, ?_, rfl⟩
        rw [← left, List.take_append_drop]
      · obtain ⟨before, d, after, split, onLine⟩ := ih later
        refine ⟨skipped ++ text ++ before, d, after, ?_, ?_⟩
        · rw [List.append_assoc _ before, ← split]
          exact eq_of_drop_eq_cons left found.more
        · rw [onLine, lineFeeds_append, lineFeeds_append]
          omega

theorem pairwise_line_scan (frames : List Frame) (index line : Nat) (source : List Char) :
    (scan frames index line source).Pairwise (·.line ≤ ·.line) := by
  fun_induction scan frames index line source with
  | case1 => exact .nil
  | case2 frames index line source gap c rest left found skipped text first last ih =>
      refine ih.cons fun token later => ?_
      obtain ⟨before, _, _, _, onLine⟩ := line_of_mem_scan later
      show first ≤ token.line
      omega

theorem pairwise_line_tokens (source : List Char) : (tokens source).Pairwise (·.line ≤ ·.line) := by
  unfold tokens
  split <;> exact pairwise_line_scan _ _ _ _

theorem line_le_of_mem_tokens {source : List Char} {token : Token} (member : token ∈ tokens source) :
    token.line ≤ (Text.lines source).length := by
  have placed : ∃ before c after, source = before ++ c :: after ∧ token.line = 1 + lineFeeds before := by
    unfold tokens at member
    split at member
    · next rest =>
        obtain ⟨before, c, after, rfl, onLine⟩ := line_of_mem_scan member
        exact ⟨'\uFEFF' :: before, c, after, rfl, onLine⟩
    · exact line_of_mem_scan member
  obtain ⟨before, c, after, rfl, onLine⟩ := placed
  rw [onLine, Nat.add_comm]
  exact Text.count_lt_length_lines before c after

end CallContext.Java.Lexer
