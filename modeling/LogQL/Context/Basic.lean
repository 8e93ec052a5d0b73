import LogQL.Text.Words
import LogQL.Tree.Basic
import LogQL.Vocabulary

/-!
# The context of a cursor

A context says what the place of the cursor calls for, where the text to be replaced begins, and
by which rule that was found.
-/

namespace LogQL

namespace Context

/-- The quotes that a label value is offered with. -/
inductive QuoteStyle where
  /-- The value replaces a string of the text and is shown in single quotes. -/
  | single
  /-- The value follows an equals sign and is inserted in double quotes. -/
  | double
  deriving DecidableEq, Repr, Inhabited

/-- What the place of the cursor calls for. -/
inductive Intent where
  /-- Any word of the language. -/
  | anyWord
  /-- Label names. -/
  | labelName
  /-- The values of one label. -/
  | labelValue (label : String) (quote : QuoteStyle)
  /-- Words of some kinds only. -/
  | wordOf (kinds : List WordKind)
  deriving DecidableEq, Repr, Inhabited

/-- The rule that recognised the place. -/
inductive Rule where
  | treeLabelMatcher
  | treeLabelValue
  | treePipeline
  | textLabelName
  | textLabelValue
  | word
  deriving DecidableEq, Repr, Inhabited

end Context

/-- What the place of a cursor calls for, and where the replacement begins. -/
structure Context where
  intent : Context.Intent
  /-- The offset at which the replaced text begins; it ends at the cursor. -/
  anchor : Nat
  rule : Context.Rule
  deriving DecidableEq, Repr, Inhabited

/-- A request to complete the text at a cursor. -/
structure Request where
  text : List Char
  /-- The offset of the cursor; any number, in the text or not. -/
  cursor : Nat
  tree : Option Tree
  /-- The user asked for completion, rather than typed. -/
  isExplicit : Bool
  deriving DecidableEq, Repr, Inhabited

end LogQL
