import CallContext.Context
import CallContext.Context.TokenCounter

/-!
Contexts as text, in full or within a token budget. What is over the budget loses the content of its
related files first, then its call chains and related files, and at last the end of its changed files.
-/

namespace CallContext.Context

def header : String :=
  "\n\nCode context (reference only, do not raise issues about this section)\n"

def omissionNote : String :=
  "Note: some content omitted due to token limit\n"

def fullChainLimit : Nat := 20

def shortChainLimit : Nat := 10

def shortRelatedLimit : Nat := 3

def titled (title : String) : List String → String
  | [] => ""
  | parts => "\n== " ++ title ++ " ==\n" ++ String.join parts

def changedInFull (file : ChangedFile) : String :=
  "\nFile: " ++ file.path ++ "\n" ++
    (match file.typeName with
      | some name => "Class: " ++ name ++ "\n"
      | none => "") ++
    (if file.annotations.isEmpty then ""
      else "Class annotations: " ++ Text.joinWith ", " file.annotations ++ "\n") ++
    "\n" ++ file.content ++ "\n"

def relatedInFull (file : RelatedFile) : String :=
  "\nFile: " ++ file.path ++ " (" ++ file.reason ++ ")\n\n" ++ file.content ++ "\n"

def changedInShort (file : ChangedFile) : String :=
  "\nFile: " ++ file.path ++ "\n" ++ file.content ++ "\n"

def relatedInShort (file : RelatedFile) : String :=
  "\nFile: " ++ file.path ++ " (content omitted)\n"

def chainList (chains : List String) (limit : Nat) : String :=
  if chains.isEmpty then ""
  else "\n== Call chains ==\n" ++ String.join ((chains.take limit).map fun chain => "- " ++ chain ++ "\n")

def render (context : Context) : String :=
  header ++ titled "Changed files" (context.changedFiles.map changedInFull) ++
    titled "Related files" (context.relatedFiles.map relatedInFull) ++
    chainList context.callChains fullChainLimit

def shortStart (context : Context) : String :=
  header ++ omissionNote ++ titled "Changed files" (context.changedFiles.map changedInShort)

/-- The text over the budget. The changed files are cut if they alone are over it; related files follow
if less than eight tenths are used by then, and chains if less than nine tenths are. -/
def renderShort (context : Context) (budget : Nat) (counter : TokenCounter) : String :=
  let start := context.shortStart
  let used := counter.count start
  if budget ≤ used then counter.truncate start budget
  else
    start ++
      -- Neither part counts the tokens of the other.
      (if 10 * used < 8 * budget then
        titled "Related files (paths only)"
          ((context.relatedFiles.take shortRelatedLimit).map relatedInShort)
      else "") ++
      (if 10 * used < 9 * budget then chainList context.callChains shortChainLimit else "")

def renderWithin (context : Context) (budget : Nat) (counter : TokenCounter) : String :=
  if counter.count context.render ≤ budget then context.render
  else context.renderShort budget counter

end CallContext.Context
