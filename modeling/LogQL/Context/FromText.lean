import LogQL.Context.Basic

/-!
# Guessing the context from the text

Where no tree decides, only the text before the cursor counts. Inside an open brace it looks for
a place where a label name or a label value is due, and otherwise for a word under way.
Strings and comments are not recognised as such.
-/

namespace LogQL.Context

/-- The text after the last open brace, if no closing brace follows that one. -/
def openSelector? (before : List Char) : Option (List Char) :=
  let inner := Text.trailing (· != '{') before
  if before.contains '{' ∧ !inner.contains '}' then some inner else none

/-- The word that stands before an equals sign at the end of the line. -/
def assignedLabel? (line : List Char) : Option (List Char) :=
  match line.getLast? with
  | some '=' =>
    let word := Text.trailing Text.isWord line.dropLast
    if word.isEmpty then none else some word
  | _ => none

/-- A label name or value is due inside an open brace. -/
def inSelector? (before line : List Char) (cursor : Nat) : Option Context := do
  let inner ← openSelector? before
  let last := (Text.trim line).getLast?
  if !inner.contains '=' ∨ last = some ',' ∨ last = some '{' then
    some ⟨.labelName, cursor, .textLabelName⟩
  else
    let label ← assignedLabel? line
    some ⟨.labelValue (String.ofList label) .double, cursor, .textLabelValue⟩

/-- A word ends at the cursor, or the user asked on a blank spot. -/
def onWord? (text : List Char) (cursor : Nat) (isExplicit : Bool) : Option Context :=
  let start := Text.wordStart text cursor
  if start = cursor ∧ !isExplicit then none else some ⟨.anyWord, start, .word⟩

/-- The context that the text shows at `cursor`, a boundary of the text. -/
def ofText? (text : List Char) (cursor : Nat) (isExplicit : Bool) : Option Context :=
  inSelector? (Text.upTo text cursor) (Text.lineBefore text cursor) cursor
    <|> onWord? text cursor isExplicit

end LogQL.Context
