import Mathlib
import CallContext.FileTree.Walk

/-!
Two rules decide by its extension whether a file counts: that of a walk, whose files are indexed, and
that of a request, whose changed files are read. They are the same rule as long as there is a list of
extensions; an empty one means every file to a walk and no file to a request.
-/

namespace CallContext

namespace Path

theorem lowered_lowered (text : String) : lowered (lowered text) = lowered text := by
  simp only [lowered, String.toList_ofList, List.map_map]
  congr 1
  exact List.map_congr_left fun c _ => c.toLower_toLower_eq_toLower

theorem sameLetters_lowered (text other : String) :
    sameLetters (lowered text) other = sameLetters text other := by
  rw [sameLetters, lowered_lowered, sameLetters]

theorem hasExtension_nil (path : String) : hasExtension [] path = false := by
  cases ending : extension path with
  | none => rw [hasExtension, ending, Option.any_none]
  | some found => rw [hasExtension, ending, Option.any_some, List.any_nil]

end Path

namespace Walker

open CallContext.Path

/-- Small letters and missing dots in the list of a walk make no difference to the request's rule. -/
theorem acceptsExtension_withExtensions (walker : Walker) (extensions : List String) (path : String) :
    (walker.withExtensions extensions).acceptsExtension path =
      (extensions.isEmpty || hasExtension extensions path) := by
  simp only [acceptsExtension, withExtensions, hasExtension, List.isEmpty_map, List.any_map,
    Function.comp_def, sameLetters_lowered]

theorem acceptsExtension_eq_hasExtension_iff (walker : Walker) (extensions : List String)
    (path : String) :
    (walker.withExtensions extensions).acceptsExtension path = hasExtension extensions path ↔
      extensions ≠ [] := by
  rw [acceptsExtension_withExtensions]
  cases extensions with
  | nil =>
      rw [hasExtension_nil]
      decide
  | cons first rest => simp only [List.isEmpty_cons, Bool.false_or, ne_eq, reduceCtorEq,
      not_false_eq_true]

theorem acceptsExtension_ne_hasExtension :
    ¬ ∀ (walker : Walker) (extensions : List String) (path : String),
      (walker.withExtensions extensions).acceptsExtension path = hasExtension extensions path := by
  intro same
  have kept : (withExtensions ⟨[], []⟩ []).acceptsExtension "A.java" = true := by decide
  have skipped : hasExtension [] "A.java" = false := hasExtension_nil "A.java"
  have agree := same ⟨[], []⟩ [] "A.java"
  rw [kept, skipped] at agree
  cases agree

end Walker

end CallContext
