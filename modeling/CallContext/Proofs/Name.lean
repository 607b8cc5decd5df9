import CallContext.Name
import CallContext.Proofs.Text.Cut

/-!
Dotted names by their segments. A member adds its segments to those of its owner, the simple name is the
last segment, and cutting a name at a dot cuts its segments in two.
-/

namespace CallContext.Name

open Text

def segments (name : String) : List String :=
  (splitAt '.' name.toList).map String.ofList

theorem segments_of_not_mem {name : String} (dotless : '.' ∉ name.toList) :
    segments name = [name] := by
  rw [segments, splitAt_of_not_mem dotless, List.map_singleton, String.ofList_toList]

theorem toList_member (owner name : String) :
    (member owner name).toList = owner.toList ++ '.' :: name.toList := by
  simp [member]

theorem segments_member (owner name : String) :
    segments (member owner name) = segments owner ++ segments name := by
  rw [segments, toList_member, splitAt_append, List.map_append, segments, segments]

theorem eq_member_of_toList {name : String} {before after : List Char}
    (split : name.toList = before ++ '.' :: after) :
    name = member (String.ofList before) (String.ofList after) := by
  rw [← String.toList_inj, toList_member, split, String.toList_ofList, String.toList_ofList]

theorem splitHead_eq_none {name : String} (whole : splitHead name = none) : '.' ∉ name.toList :=
  cutFirst_eq_none_iff.mp (Option.map_eq_none_iff.mp whole)

theorem splitHead_eq_some {name head rest : String} (cut : splitHead name = some (head, rest)) :
    name = member head rest ∧ '.' ∉ head.toList := by
  obtain ⟨⟨before, after⟩, found, same⟩ := Option.map_eq_some_iff.mp cut
  obtain ⟨rfl, rfl⟩ := Prod.mk.inj same
  obtain ⟨split, absent⟩ := cutFirst_eq_some found
  exact ⟨eq_member_of_toList split, by rwa [String.toList_ofList]⟩

theorem splitLast_eq_some {name owner last : String} (cut : splitLast name = some (owner, last)) :
    name = member owner last := by
  obtain ⟨⟨before, after⟩, found, same⟩ := Option.map_eq_some_iff.mp cut
  obtain ⟨rfl, rfl⟩ := Prod.mk.inj same
  exact eq_member_of_toList (cutLast_eq_some found).1

theorem splitLast_eq_none {name : String} (whole : splitLast name = none) : '.' ∉ name.toList :=
  cutLast_eq_none_iff.mp (Option.map_eq_none_iff.mp whole)

theorem segments_of_splitLast {name owner last : String} (cut : splitLast name = some (owner, last)) :
    segments name = segments owner ++ [last] := by
  obtain ⟨⟨before, after⟩, found, same⟩ := Option.map_eq_some_iff.mp cut
  obtain ⟨rfl, rfl⟩ := Prod.mk.inj same
  obtain ⟨split, absent⟩ := cutLast_eq_some found
  have dotless : '.' ∉ (String.ofList after).toList := by rwa [String.toList_ofList]
  rw [eq_member_of_toList split, segments_member, segments_of_not_mem dotless]

theorem member_left_inj {owner other name : String} :
    member owner name = member other name ↔ owner = other := by
  rw [← String.toList_inj, toList_member, toList_member, List.append_left_inj, String.toList_inj]

theorem qualifier?_eq_some_iff {name last owner : String} :
    qualifier? name last = some owner ↔ name = member owner last := by
  rw [qualifier?, Option.map_eq_some_iff]
  constructor
  · rintro ⟨before, dropped, rfl⟩
    rw [eq_member_of_toList (dropEnd?_eq_some dropped), String.ofList_toList]
  · rintro rfl
    exact ⟨owner.toList, by rw [toList_member, dropEnd?_append], String.ofList_toList⟩

theorem segments_suffix_iff {name last : String} :
    segments last <:+ segments name ↔ name = last ∨ (qualifier? name last).isSome := by
  rw [segments, segments, List.suffix_map_iff_of_injective fun _ _ => String.ofList_injective,
    splitAt_suffix_iff, String.toList_inj, Option.isSome_iff_exists]
  simp only [qualifier?_eq_some_iff]
  refine or_congr_right ⟨?_, ?_⟩
  · rintro ⟨before, split⟩
    rw [← String.ofList_toList (s := last)]
    exact ⟨String.ofList before, eq_member_of_toList split⟩
  · rintro ⟨owner, rfl⟩
    exact ⟨owner.toList, toList_member owner last⟩

theorem getLast?_segments (name : String) : (segments name).getLast? = some (simpleName name) := by
  cases found : cutLast '.' name.toList with
  | none =>
      rw [segments_of_not_mem (cutLast_eq_none_iff.mp found), simpleName, found]
      rfl
  | some parts =>
      obtain ⟨before, after⟩ := parts
      obtain ⟨split, absent⟩ := cutLast_eq_some found
      rw [simpleName, found, segments, split, splitAt_append, splitAt_of_not_mem absent]
      simp

theorem simpleName_mem_segments (name : String) : simpleName name ∈ segments name :=
  List.mem_of_getLast? (getLast?_segments name)

theorem simpleName_member (owner name : String) :
    simpleName (member owner name) = simpleName name := by
  have whole := getLast?_segments (member owner name)
  rw [segments_member, List.getLast?_append, getLast?_segments, Option.some_or] at whole
  exact (Option.some.inj whole).symm

theorem simpleName_of_not_mem {name : String} (dotless : '.' ∉ name.toList) :
    simpleName name = name := by
  have whole := getLast?_segments name
  rw [segments_of_not_mem dotless] at whole
  exact (Option.some.inj whole).symm

theorem join_pair (qualifier name : String) : join '.' [qualifier, name] =
    if qualifier = "" then name else if name = "" then qualifier else member qualifier name := by
  by_cases left : qualifier = "" <;> by_cases right : name = ""
  all_goals simp [join, joinWith, member, left, right]

theorem simpleName_join_pair (qualifier : String) {name : String} (some : name ≠ "") :
    simpleName (join '.' [qualifier, name]) = simpleName name := by
  rw [join_pair]
  split_ifs
  · rfl
  · exact simpleName_member qualifier name

end CallContext.Name
