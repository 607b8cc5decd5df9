import CallContext.Proofs.Text.Blank
import CallContext.Proofs.Text.Words
import Mathlib.Data.List.Chain

namespace CallContext.Text

structure IsSpaced (text : List Char) : Prop where
  trimmed : IsTrimmed text
  spaces : ∀ c ∈ text, isBlank c → c = ' '
  single : text.IsChain fun c next => isBlank c → isBlank next = false

theorem isSpaced_of_solid {text : List Char} (solid : ∀ c ∈ text, isBlank c = false) : IsSpaced text where
  trimmed := trim_eq_self_iff.mp (trim_of_solid solid)
  spaces c member blank := by
    rw [solid c member] at blank
    cases blank
  single := by
    have later : text.Pairwise fun c next => isBlank c → isBlank next = false :=
      List.pairwise_of_forall_mem_list fun _ _ next member _ => solid next member
    exact later.isChain

theorem IsSpaced.append_space {before after : List Char} (left : IsSpaced before) (right : IsSpaced after)
    (some : before ≠ []) (more : after ≠ []) : IsSpaced (before ++ ' ' :: after) where
  trimmed := by
    constructor
    · rw [List.head?_append_of_ne_nil _ some]
      exact left.trimmed.1
    · rw [List.append_cons, List.getLast?_append_of_ne_nil _ more]
      exact right.trimmed.2
  spaces c member blank := by
    rcases List.mem_append.mp member with inBefore | rest
    · exact left.spaces c inBefore blank
    · rcases List.mem_cons.mp rest with rfl | inAfter
      · rfl
      · exact right.spaces c inAfter blank
  single := by
    refine List.isChain_append.mpr ⟨left.single, List.isChain_cons.mpr ⟨?_, right.single⟩, ?_⟩
    · rintro next first -
      have begins := right.trimmed.1
      rwa [first] at begins
    · intro c last _ _ blank
      have ends := left.trimmed.2
      rw [last, Option.any_some, blank] at ends
      cases ends

theorem isSpaced_intersperse {found : List (List Char)} (all : ∀ word ∈ found, IsWord word) :
    IsSpaced (found.intersperse [' ']).flatten := by
  induction found with
  | nil => exact isSpaced_of_solid (by simp)
  | cons first rest ih =>
      have word := all first List.mem_cons_self
      have spaced : IsSpaced first := isSpaced_of_solid word.2
      cases rest with
      | nil => simpa using spaced
      | cons second others =>
          have later := ih fun word member => all word (List.mem_cons_of_mem _ member)
          have more : ((second :: others).intersperse [' ']).flatten ≠ [] := by
            have next := (all second (by simp)).1
            cases others <;> simp [next]
          rw [List.intersperse_cons_cons, List.flatten_cons, List.flatten_cons, List.singleton_append]
          exact spaced.append_space later word.1 more

theorem isSpaced_squash (text : String) : IsSpaced (squash text).toList := by
  rw [squash, String.toList_ofList]
  exact isSpaced_intersperse fun _ => isWord_of_mem_words

theorem intersperse_wordsAfter (pending : List Char) {text : List Char}
    (begins : pending = [] → text.head?.any isBlank = false) (ends : text.getLast?.any isBlank = false)
    (spaces : ∀ c ∈ text, isBlank c → c = ' ')
    (single : text.IsChain fun c next => isBlank c → isBlank next = false) :
    ((wordsAfter pending text).intersperse [' ']).flatten = pending.reverse ++ text := by
  induction text generalizing pending with
  | nil => cases pending <;> simp [wordsAfter]
  | cons c rest ih =>
      have later : ∀ d ∈ rest, isBlank d → d = ' ' := fun d member => spaces d (List.mem_cons_of_mem c member)
      obtain ⟨next, chain⟩ := List.isChain_cons.mp single
      by_cases blank : isBlank c
      · obtain rfl := spaces c List.mem_cons_self blank
        cases pending with
        | nil => simp [blank] at begins
        | cons last pending =>
            cases rest with
            | nil => simp [blank] at ends
            | cons d rest =>
                -- A space ends the pending word, and the next word begins behind it.
                have letter : isBlank d = false := next d rfl blank
                have some : wordsAfter [] (d :: rest) ≠ [] := words_ne_nil List.mem_cons_self letter
                obtain ⟨first, others, split⟩ := List.exists_cons_of_ne_nil some
                have inner := ih [] (by simp [letter]) (by simpa using ends) later chain
                rw [split, List.reverse_nil, List.nil_append] at inner
                rw [wordsAfter, if_pos blank, split, List.intersperse_cons_cons, List.flatten_cons,
                  List.flatten_cons, inner, List.singleton_append]
      · have solid : wordsAfter pending (c :: rest) = wordsAfter (c :: pending) rest := by
          cases pending <;> simp [wordsAfter, blank]
        have tail : rest.getLast?.any isBlank = false := by
          cases rest with
          | nil => rfl
          | cons d rest => simpa using ends
        have pendingSome : c :: pending = [] → rest.head?.any isBlank = false :=
          fun none => absurd none (List.cons_ne_nil c pending)
        rw [solid, ih (c :: pending) pendingSome tail later chain, List.reverse_cons, List.append_assoc,
          List.singleton_append]

theorem squash_eq_self_iff {text : String} : squash text = text ↔ IsSpaced text.toList := by
  constructor
  · intro same
    rw [← same]
    exact isSpaced_squash text
  · intro spaced
    have whole := intersperse_wordsAfter [] (fun _ => spaced.trimmed.1) spaced.trimmed.2 spaced.spaces spaced.single
    rw [List.reverse_nil, List.nil_append] at whole
    rw [squash, words, whole, String.ofList_toList]

end CallContext.Text
