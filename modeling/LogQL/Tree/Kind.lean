/-!
# Kinds of syntax nodes

Parsers name their node types; the kinds that the analyses ask for get a constructor each and
every other type is carried by name. Several spellings may name one kind, and `name` gives back
the canonical one, so `ofName` undoes `name` on every kind that `ofName` produces.
-/

namespace LogQL.Tree

/-- What a node of the syntax tree stands for. -/
inductive Kind where
  /-- A matcher `name op "value"` inside a stream selector. -/
  | labelMatcher
  /-- The label of a matcher. -/
  | labelName
  /-- A quoted string. -/
  | string
  /-- The comparison of a matcher. -/
  | operator
  /-- The stages after a stream selector. -/
  | pipeline
  /-- The braces and all that is in them. -/
  | selector
  /-- A region that the parser could not read. -/
  | error
  /-- Any other type, by name. -/
  | other (name : String)
  deriving DecidableEq, Repr, Inhabited

namespace Kind

/-- The kind that a parser's type name stands for. -/
def ofName (name : String) : Kind :=
  if name = "LabelMatcher" ∨ name = "Matcher" then .labelMatcher
  else if name = "LabelName" ∨ name = "Identifier" then .labelName
  else if name = "String" then .string
  else if name = "Operator" ∨ name = "Eq" ∨ name = "Neq" ∨ name = "Re" ∨ name = "Nre" then
    .operator
  else if name = "PipelineExpr" then .pipeline
  else if name = "Selector" then .selector
  else if name = "⚠" ∨ name = "ERROR" then .error
  else .other name

/-- The canonical name of a kind. -/
def name : Kind → String
  | .labelMatcher => "LabelMatcher"
  | .labelName => "LabelName"
  | .string => "String"
  | .operator => "Operator"
  | .pipeline => "PipelineExpr"
  | .selector => "Selector"
  | .error => "⚠"
  | .other name => name

end Kind

end LogQL.Tree
