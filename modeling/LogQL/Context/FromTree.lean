import LogQL.Context.Basic
import LogQL.Tree.Navigation

/-!
# Reading the context off the syntax tree

The node looked at is the innermost one that ends at the cursor or holds it. Three places are
recognised, in this order: a label matcher or its name, the string of a matcher right after its
operator, and anything inside a pipeline. Elsewhere the tree has no answer.
-/

namespace LogQL.Context

/-- The cursor is on a label matcher, or on the name of one. -/
def onMatcher? (tree : Tree) (node cursor : Nat) : Option Context := do
  let kind ← tree.kind? node
  if kind = .labelMatcher then
    some ⟨.labelName, cursor, .treeLabelMatcher⟩
  else if kind = .labelName then
    let parentKind ← tree.kind? (← tree.parent? node)
    let span ← tree.span? node
    if parentKind = .labelMatcher then some ⟨.labelName, span.start, .treeLabelMatcher⟩ else none
  else none

/-- The cursor is in the string that follows the operator of a matcher. -/
def inMatcherString? (tree : Tree) (text : List Char) (node : Nat) : Option Context := do
  let kind ← tree.kind? node
  let before ← tree.kind? (← tree.prevSibling? node)
  let matcher ← tree.parent? node
  let matcherKind ← tree.kind? matcher
  if kind = .string ∧ before = .operator ∧ matcherKind = .labelMatcher then
    let name ← tree.childOfKind? matcher .labelName
    let label ← (← tree.span? name).slice? text
    let span ← tree.span? node
    some ⟨.labelValue (String.ofList label) .single, span.start, .treeLabelValue⟩
  else none

/-- The cursor is inside a pipeline. -/
def inPipeline? (tree : Tree) (text : List Char) (node cursor : Nat) : Option Context :=
  if (tree.ancestors node).any (tree.kind? · == some .pipeline) then
    some ⟨.wordOf Vocabulary.stages, Text.wordStart text cursor, .treePipeline⟩
  else none

/-- The context that the tree shows at `cursor`, a boundary of the text. -/
def ofTree? (tree : Tree) (text : List Char) (cursor : Nat) : Option Context :=
  let node := tree.resolve cursor .before
  onMatcher? tree node cursor <|> inMatcherString? tree text node
    <|> inPipeline? tree text node cursor

end LogQL.Context
