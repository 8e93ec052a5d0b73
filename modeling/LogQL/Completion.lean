import LogQL.Cache.Labels
import LogQL.Context.Classify

/-!
# Completing a text

The context of the cursor says what to offer. Words of the language come from the vocabulary; for
label names and values one question is put to a data source, and its answer becomes the list of
suggestions, item by item. How the question is answered is left open: `Request.complete?` runs in
any monad, asks at most once, and takes an empty answer for an answer.
-/

namespace LogQL

/-- The offer for a cursor: where the replaced text begins, and what may replace it. -/
structure Completion where
  anchor : Nat
  suggestions : List Suggestion
  deriving DecidableEq, Repr, Inhabited

namespace Context.Intent

/-- The question that has to be answered before anything can be offered. -/
def question? : Intent → Option Cache.Question
  | .labelName => some .names
  | .labelValue label _ => some (.values label)
  | .anyWord | .wordOf _ => none

/-- What is offered, given the answer to the question. -/
def suggestions (answer : List String) : Intent → List Suggestion
  | .anyWord => Vocabulary.words
  | .wordOf kinds => Vocabulary.ofKinds kinds
  | .labelName => answer.map Suggestion.ofLabel
  | .labelValue label .single => answer.map (Suggestion.ofQuotedValue label)
  | .labelValue label .double => answer.map (Suggestion.ofBareValue label)

end Context.Intent

/-- The offer for the cursor of a request, if its place has a context. -/
def Request.complete? {m : Type → Type} [Monad m] (ask : Cache.Question → m (List String))
    (r : Request) : m (Option Completion) :=
  match r.context? with
  | none => pure none
  | some context =>
    match context.intent.question? with
    | none => pure (some ⟨context.anchor, context.intent.suggestions []⟩)
    | some q => do
      let answer ← ask q
      pure (some ⟨context.anchor, context.intent.suggestions answer⟩)

end LogQL
