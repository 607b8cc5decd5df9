import Mathlib.Data.List.Basic
import CallContext.Text.Blank
import CallContext.Text.CodeRange

namespace CallContext.Text

def areApart (ranges others : List CodeRange) : Bool :=
  ranges.all fun range => others.all fun other => Nat.blt range.2 other.1 || Nat.blt other.2 range.1

def blankRanges : List CodeRange :=
  [(0x85, 0x85), (0xa0, 0xa0), (0x1680, 0x1680), (0x2000, 0x200a), (0x2028, 0x2029), (0x202f, 0x202f),
    (0x205f, 0x205f), (0x3000, 0x3000)]

theorem exists_blankRange {c : Char} (beyond : 0x80 ≤ c.toNat) (blank : isBlank c) :
    ∃ range ∈ blankRanges, range.1 ≤ c.toNat ∧ c.toNat ≤ range.2 := by
  simp only [isBlank, Bool.or_eq_true, Bool.and_eq_true, decide_eq_true_eq, beq_iff_eq] at blank
  simp only [blankRanges, List.exists_mem_cons_iff, List.not_mem_nil, false_and, exists_false, or_false]
  omega

theorem not_isBlank_of_inRanges {ranges : Array CodeRange}
    (apart : areApart ranges.toList blankRanges) {c : Char} (beyond : 0x80 ≤ c.toNat)
    (member : inRanges ranges c) : isBlank c = false := by
  by_contra blank
  obtain ⟨other, among, low, high⟩ := exists_blankRange beyond (Bool.not_eq_false _ ▸ blank)
  rw [inRanges, ← Array.any_toList] at member
  obtain ⟨range, listed, inside⟩ := List.any_eq_true.mp member
  have disjoint := List.all_eq_true.mp (List.all_eq_true.mp apart range listed) other among
  simp only [Bool.or_eq_true, Bool.and_eq_true, decide_eq_true_eq, Nat.blt_eq] at disjoint inside
  omega

theorem areApart_identifiers : areApart CodeRange.identifierStart.toList blankRanges ∧
    areApart CodeRange.identifierPart.toList blankRanges := by
  decide +kernel

end CallContext.Text
