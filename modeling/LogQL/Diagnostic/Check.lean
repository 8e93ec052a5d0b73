import LogQL.Diagnostic.Brackets
import LogQL.Text.Words
import LogQL.Tree.Navigation

/-!
# Checking a text

The four rules, and the check that runs those that are on, in a fixed order. A blank text is
never at fault.
-/

namespace LogQL.Diagnostic

/-- An odd number of double quotes leaves one open; the finding covers the whole text. -/
def checkQuotes (text : List Char) : List Diagnostic :=
  if text.count '"' % 2 = 0 then []
  else [⟨0, Text.byteLength text, .error, "Unclosed double quote", .quotes⟩]

/-- Where `{}` first stands in a text that begins at `start`. -/
def emptySelector? : (start : Nat) → List Char → Option Nat
  | start, '{' :: '}' :: _ => some start
  | start, c :: cs => emptySelector? (start + c.utf8Size) cs
  | _, [] => none

/-- The first empty selector. -/
def checkEmptySelector (text : List Char) : List Diagnostic :=
  (emptySelector? 0 text).toList.map fun start =>
    ⟨start, start + 2, .warning,
      "Empty selector \x7b\x7d will match all logs, which may be inefficient", .emptySelector⟩

/-- The finding about a node that the parser could not read, cut to the text. Its message shows
the text of the node where that text can be cut out. -/
def unreadableNode (text : List Char) (span : Tree.Span) : Diagnostic :=
  let stop := min span.stop (Text.byteLength text)
  let start := min span.start stop
  let snippet := (Text.slice? text start stop).getD []
  ⟨start, stop, .error, "Syntax error: " ++ String.ofList snippet, .parseErrors⟩

/-- The nodes that the parser could not read, in document order. -/
def checkParseErrors (text : List Char) (tree : Tree) : List Diagnostic :=
  (tree.preorder.filterMap tree.node?).filterMap fun n =>
    if n.isError then some (unreadableNode text n.span) else none

/-- The findings of one rule. -/
def checkRule (text : List Char) (tree : Option Tree) : Rule → List Diagnostic
  | .quotes => checkQuotes text
  | .brackets => checkBrackets text
  | .parseErrors => (tree.map (checkParseErrors text)).getD []
  | .emptySelector => checkEmptySelector text

/-- The order in which the rules report. -/
def Rule.all : List Rule := [.quotes, .brackets, .parseErrors, .emptySelector]

/-- The findings of all rules that are on. -/
def check (o : Options) (text : List Char) (tree : Option Tree) : List Diagnostic :=
  if text.all Text.isBlank then []
  else (Rule.all.filter o.enables).flatMap (checkRule text tree)

end LogQL.Diagnostic
