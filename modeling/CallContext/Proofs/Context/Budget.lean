import CallContext.Context.Render
import CallContext.Proofs.Text.Words
import Mathlib.Algebra.GroupWithZero.Nat

/-!
How many words a context has within a token budget. The full text is shown only if it fits, and the
text over the budget is cut if its changed files alone exceed it. Otherwise related paths and chains
follow as long as the changed files leave some share of the budget; how many words these sections have
is not looked at, so they can exceed it.
-/

namespace CallContext

namespace TokenCounter

theorem getLast?_append_ending (text : String) {ending : String} (nonempty : ending.toList ≠ []) :
    (text ++ ending).toList.getLast? = ending.toList.getLast? := by
  rw [String.toList_append, List.getLast?_append_of_ne_nil _ nonempty]

theorem words_count_append {before after : String}
    (apart : after.toList.head?.all Text.isBlank ∨ before.toList.getLast?.all Text.isBlank) :
    words.count (before ++ after) = words.count before + words.count after := by
  simp only [words, String.toList_append]
  rw [Text.words_append apart, List.length_append]

theorem words_count_join {parts : List String}
    (closed : ∀ part ∈ parts, part.toList.getLast?.all Text.isBlank) :
    words.count (String.join parts) = (parts.map words.count).sum := by
  induction parts with
  | nil => decide
  | cons part rest ih =>
      rw [String.join_cons, words_count_append (.inr (closed part (by simp))),
        ih fun other member => closed other (by simp [member]), List.map_cons, List.sum_cons]

theorem words_count_truncate (text : String) (limit : Nat) :
    words.count (words.truncate text limit) = min limit (words.count text) := by
  have all : ∀ word ∈ (Text.words text.toList).take limit, Text.IsWord word :=
    fun word member => Text.isWord_of_mem_words (List.mem_of_mem_take member)
  simp only [words, String.toList_ofList]
  rw [Text.words_spaced all, List.length_take]

end TokenCounter

namespace Context

open TokenCounter

theorem words_count_relatedInShort (file : RelatedFile) :
    words.count (relatedInShort file) = 3 + words.count file.path := by
  have opening : words.count ("\nFile: " ++ file.path) = 1 + words.count file.path :=
    words_count_append (.inr (by decide))
  have ending : words.count " (content omitted)\n" = 2 := by decide
  rw [relatedInShort, words_count_append (.inl (by decide)), opening, ending]
  omega

theorem words_count_chainLine (chain : String) :
    words.count ("- " ++ chain ++ "\n") = 1 + words.count chain := by
  have opening : words.count ("- " ++ chain) = 1 + words.count chain :=
    words_count_append (.inr (by decide))
  have ending : words.count "\n" = 0 := by decide
  rw [words_count_append (.inl (by decide)), opening, ending, Nat.add_zero]

/-- The words of the related paths over the budget: six in the title, and three besides each path. -/
def relatedWords (context : Context) : Nat :=
  if context.relatedFiles.isEmpty then 0
  else 6 + ((context.relatedFiles.take shortRelatedLimit).map fun file =>
    3 + words.count file.path).sum

/-- The words of the chains over the budget: four in the title, and a dash before each chain. -/
def chainWords (context : Context) : Nat :=
  if context.callChains.isEmpty then 0
  else 4 + ((context.callChains.take shortChainLimit).map fun chain => 1 + words.count chain).sum

def relatedSection (context : Context) : String :=
  titled "Related files (paths only)"
    ((context.relatedFiles.take shortRelatedLimit).map relatedInShort)

theorem words_count_relatedSection (context : Context) :
    words.count context.relatedSection = context.relatedWords := by
  rw [relatedSection, relatedWords]
  cases context.relatedFiles with
  | nil => decide
  | cons first rest =>
      have closed : ∀ part ∈ ((first :: rest).take shortRelatedLimit).map relatedInShort,
          part.toList.getLast?.all Text.isBlank := by
        intro part member
        obtain ⟨file, -, rfl⟩ := List.mem_map.mp member
        rw [relatedInShort, getLast?_append_ending _ (by decide)]
        decide
      have title : words.count "\n== Related files (paths only) ==\n" = 6 := by decide
      have sum := words_count_join closed
      rw [List.map_map] at sum
      simp only [Function.comp_def, words_count_relatedInShort] at sum
      have unfolded : titled "Related files (paths only)"
          (((first :: rest).take shortRelatedLimit).map relatedInShort) =
            "\n== Related files (paths only) ==\n" ++
              String.join (((first :: rest).take shortRelatedLimit).map relatedInShort) := rfl
      rw [unfolded, words_count_append (.inr (by decide)), title, sum]
      rfl

theorem words_count_chainList (context : Context) :
    words.count (chainList context.callChains shortChainLimit) = context.chainWords := by
  rw [chainList, chainWords]
  split_ifs
  · decide
  · have closed : ∀ part ∈ (context.callChains.take shortChainLimit).map fun chain =>
        "- " ++ chain ++ "\n", part.toList.getLast?.all Text.isBlank := by
      intro part member
      obtain ⟨chain, -, rfl⟩ := List.mem_map.mp member
      rw [getLast?_append_ending _ (by decide)]
      decide
    have title : words.count "\n== Call chains ==\n" = 4 := by decide
    have sum := words_count_join closed
    rw [List.map_map] at sum
    simp only [Function.comp_def, words_count_chainLine] at sum
    rw [words_count_append (.inr (by decide)), title, sum]

theorem head?_titled (title : String) (parts : List String) :
    (titled title parts).toList.head?.all Text.isBlank := by
  cases parts with
  | nil => rfl
  | cons part rest => simp [titled, Text.isBlank]

theorem head?_chainList (chains : List String) (limit : Nat) :
    (chainList chains limit).toList.head?.all Text.isBlank := by
  rw [chainList]
  split_ifs
  · decide
  · simp [Text.isBlank]

theorem words_count_sections (context : Context) (paths chains : Prop) [Decidable paths]
    [Decidable chains] :
    words.count (context.shortStart ++ (if paths then context.relatedSection else "") ++
        (if chains then chainList context.callChains shortChainLimit else "")) =
      words.count context.shortStart + (if paths then context.relatedWords else 0) +
        (if chains then context.chainWords else 0) := by
  have nothing : words.count "" = 0 := by decide
  rw [words_count_append, words_count_append]
  · split_ifs <;> simp only [words_count_relatedSection, words_count_chainList, nothing]
  · left
    split_ifs
    · exact head?_titled _ _
    · decide
  · left
    split_ifs
    · exact head?_chainList _ _
    · decide

theorem words_count_renderShort {context : Context} {budget : Nat}
    (room : words.count context.shortStart < budget) :
    words.count (context.renderShort budget words) =
      words.count context.shortStart +
        (if 10 * words.count context.shortStart < 8 * budget then context.relatedWords else 0) +
        (if 10 * words.count context.shortStart < 9 * budget then context.chainWords else 0) := by
  have appended : context.renderShort budget words = _ := if_neg (Nat.not_le_of_lt room)
  rw [appended]
  exact words_count_sections context _ _

/-- How many words are shown. The budget is kept if the full text fits or if the start over the budget
takes nine tenths of it; otherwise the start leaves room, and just the sections after it can exceed the
budget. -/
theorem words_count_renderWithin (context : Context) (budget : Nat) :
    let used := words.count context.shortStart
    let shown := words.count (context.renderWithin budget words)
    (shown =
      if words.count context.render ≤ budget then words.count context.render
      else if budget ≤ used then budget
      else used + (if 10 * used < 8 * budget then context.relatedWords else 0) +
        (if 10 * used < 9 * budget then context.chainWords else 0)) ∧
    (words.count context.render ≤ budget ∨ 9 * budget ≤ 10 * used → shown ≤ budget) := by
  intro used shown
  have counted : shown =
      if words.count context.render ≤ budget then words.count context.render
      else if budget ≤ used then budget
      else used + (if 10 * used < 8 * budget then context.relatedWords else 0) +
        (if 10 * used < 9 * budget then context.chainWords else 0) := by
    by_cases fits : words.count context.render ≤ budget
    · rw [if_pos fits]
      exact congrArg words.count (if_pos fits)
    · have short : shown = words.count (context.renderShort budget words) :=
        congrArg words.count (if_neg fits)
      rw [if_neg fits, short]
      by_cases filled : budget ≤ used
      · have cut : context.renderShort budget words = words.truncate context.shortStart budget :=
          if_pos filled
        rw [if_pos filled, cut, words_count_truncate, Nat.min_eq_left filled]
      · rw [if_neg filled]
        exact words_count_renderShort (Nat.lt_of_not_ge filled)
  refine ⟨counted, fun kept => ?_⟩
  rw [counted]
  -- From nine tenths on neither section is added.
  split_ifs <;> omega

def crowded : Context where
  changedFiles := [⟨"p/Svc.java", "class Svc {}", some "Svc", [], []⟩]
  relatedFiles := [⟨"p/R.java", "class R { void r() { } }", "call-chain related to p/Svc.java"⟩]
  callChains := ["Svc.a() -> R.r()"]

theorem words_count_renderWithin_not_le :
    ¬ ∀ (context : Context) (budget : Nat),
      words.count (context.renderWithin budget words) ≤ budget := by
  intro bounded
  have full : words.count crowded.render = 48 := by
    simp only [-String.reduceToList, words, render, crowded, header, titled, changedInFull,
      relatedInFull, chainList, List.map_cons, List.map_nil, String.join_cons, String.join_nil, String.toList_append]
    decide +kernel
  have used : words.count crowded.shortStart = 28 := by
    simp only [-String.reduceToList, words, shortStart, crowded, header, omissionNote, titled,
      changedInShort, List.map_cons, List.map_nil, String.join_cons, String.join_nil, String.toList_append]
    decide +kernel
  have short : crowded.renderWithin 36 words = crowded.renderShort 36 words :=
    if_neg (by rw [full]; decide)
  have related : crowded.relatedWords = 10 := by decide
  have chains : crowded.chainWords = 8 := by decide
  have kept := bounded crowded 36
  rw [short, words_count_renderShort (by rw [used]; decide), used, related, chains] at kept
  revert kept
  decide

end Context

end CallContext
