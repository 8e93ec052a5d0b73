import LogQL.Context.FromText
import LogQL.Context.FromTree

/-!
# Classifying a request

The tree is asked first and the text second, both at the cursor moved back onto a boundary. An
empty text has no context.
-/

namespace LogQL

namespace Request

/-- The cursor, moved back onto a boundary of the text. -/
def place (r : Request) : Nat := Text.clamp r.text r.cursor

/-- What the tree of the request shows. -/
def treeContext? (r : Request) : Option Context :=
  r.tree.bind (Context.ofTree? · r.text r.place)

/-- What the text of the request shows. -/
def textContext? (r : Request) : Option Context := Context.ofText? r.text r.place r.isExplicit

/-- What the place of the cursor calls for. -/
def context? (r : Request) : Option Context :=
  if r.text.isEmpty then none else r.treeContext? <|> r.textContext?

end Request

end LogQL
