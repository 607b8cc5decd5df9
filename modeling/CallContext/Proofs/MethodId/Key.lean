import CallContext.MethodId
import CallContext.Proofs.Text.Cut
import Mathlib.Data.Set.Function

/-!
Canonical keys. Reading a key undoes writing it, for exactly the identities whose owner and name leave the
number sign and the opening parenthesis to the key: every other identity has a key that is read as something
else or not at all. Parameters may be any text, since they reach up to the end of the key.
-/

namespace CallContext.MethodId

open Text

def memberText (id : MethodId) : List Char :=
  id.name.toList ++ match id.parameters with
    | some list => '(' :: (list.toList ++ [')'])
    | none => []

theorem toList_key (id : MethodId) : id.key.toList = id.owner.toList ++ '#' :: id.memberText := by
  unfold key memberText
  cases id.parameters <;> simp

@[mk_iff]
structure IsKeyed (id : MethodId) : Prop where
  owner_ne : id.owner ≠ ""
  hash_not_mem : '#' ∉ id.owner.toList
  parenthesis_not_mem : '(' ∉ id.name.toList
  named : id.name ≠ "" ∨ id.parameters.isSome

instance (id : MethodId) : Decidable id.IsKeyed :=
  decidable_of_iff' _ (isKeyed_iff id)

theorem IsKeyed.memberText_ne_nil {id : MethodId} (keyed : id.IsKeyed) : id.memberText ≠ [] := by
  unfold memberText
  rcases keyed.named with named | listed
  · exact List.append_ne_nil_of_left_ne_nil (String.toList_eq_nil_iff.not.mpr named) _
  · obtain ⟨list, parameters⟩ := Option.isSome_iff_exists.mp listed
    simp [parameters]

theorem parseMember_eq_some_iff {owner : String} {text : List Char} {id : MethodId} :
    parseMember owner text = some id ↔
      id.owner = owner ∧ '(' ∉ id.name.toList ∧ text = id.memberText := by
  constructor
  · intro parsed
    unfold parseMember at parsed
    split at parsed
    · next name list cut =>
        obtain ⟨parameters, ended, rfl⟩ := Option.map_eq_some_iff.mp parsed
        obtain ⟨rfl, absent⟩ := cutFirst_eq_some cut
        rw [dropEnd?_eq_some ended]
        exact ⟨rfl, by rwa [String.toList_ofList], by simp [memberText]⟩
    · next uncut =>
        obtain rfl := Option.some.inj parsed
        have absent := cutFirst_eq_none_iff.mp uncut
        exact ⟨rfl, by rwa [String.toList_ofList], by simp [memberText]⟩
  · rintro ⟨rfl, absent, rfl⟩
    obtain ⟨owner, name, parameters⟩ := id
    unfold parseMember memberText
    cases parameters with
    | some list => simp [cutFirst_append absent, dropEnd?_append]
    | none => simp [cutFirst_eq_none_iff.mpr absent]

theorem parseKey_eq_some_iff {key : String} {id : MethodId} :
    parseKey key = some id ↔ id.IsKeyed ∧ id.key = key := by
  constructor
  · intro parsed
    unfold parseKey at parsed
    split at parsed
    · next owner text cut =>
        split_ifs at parsed with blank
        obtain ⟨owned, absent, rfl⟩ := parseMember_eq_some_iff.mp parsed
        obtain ⟨spelled, hash⟩ := cutFirst_eq_some cut
        simp only [Bool.or_eq_true, List.isEmpty_iff, not_or] at blank
        have same : id.owner.toList = owner := by rw [owned, String.toList_ofList]
        refine ⟨⟨?_, by rwa [same], absent, ?_⟩, ?_⟩
        · rintro empty
          rw [empty] at same
          exact blank.1 same.symm
        · by_contra nothing
          simp only [not_or, not_not, Option.not_isSome_iff_eq_none] at nothing
          exact blank.2 (by simp [memberText, nothing])
        · rw [← String.toList_inj, toList_key, same, spelled]
    · cases parsed
  · rintro ⟨keyed, rfl⟩
    have owned : id.owner.toList ≠ [] := String.toList_eq_nil_iff.not.mpr keyed.owner_ne
    unfold parseKey
    rw [toList_key, cutFirst_append keyed.hash_not_mem]
    simp only [Bool.or_eq_true, List.isEmpty_iff, owned, keyed.memberText_ne_nil, or_self, if_false]
    exact parseMember_eq_some_iff.mpr
      ⟨String.ofList_toList.symm, keyed.parenthesis_not_mem, rfl⟩

/-- A key that is read is the key of what is read, an identity is read back from its key exactly if its
parts can be told apart there, and such identities differ in their keys. -/
theorem parseKey_roundTrip :
    (∀ (key : String) (id : MethodId), parseKey key = some id → id.key = key) ∧
    (∀ id : MethodId, parseKey id.key = some id ↔
      id.owner ≠ "" ∧ '#' ∉ id.owner.toList ∧ '(' ∉ id.name.toList ∧
        (id.name ≠ "" ∨ id.parameters.isSome)) ∧
    Set.InjOn key {id | id.IsKeyed} := by
  refine ⟨fun key id parsed => (parseKey_eq_some_iff.mp parsed).2, fun id => ?_, ?_⟩
  · rw [parseKey_eq_some_iff, and_iff_left rfl, isKeyed_iff]
  · intro id keyed other keyedToo same
    have read := parseKey_eq_some_iff.mpr ⟨keyed, same⟩
    rw [parseKey_eq_some_iff.mpr ⟨keyedToo, rfl⟩] at read
    exact (Option.some.inj read).symm

theorem parseKey_roundTrip_marks :
    parseKey "p.A#run(#()()" = some ⟨"p.A", "run", some "#()("⟩ ∧
      key ⟨"p.A", "run", some "#()("⟩ = "p.A#run(#()()" := by
  have parsed : parseKey "p.A#run(#()()" = some ⟨"p.A", "run", some "#()("⟩ := by decide +kernel
  exact ⟨parsed, parseKey_roundTrip.1 _ _ parsed⟩

end CallContext.MethodId
