import LogQL.Tree.Basic

/-!
# Walking a syntax tree

Looking up the innermost node around a position, the ancestors of a node, its neighbours, and
visiting every node. The walks follow links without remembering where they have been, as is safe
on a table whose links form no cycle; there a descent or an ascent meets no node twice, so the
number of nodes bounds its length, and a visit of everything takes at most `visitBound` steps. On a
table with a cycle the walks stop at those bounds.
-/

namespace LogQL.Tree

/-- The first child of `id` whose span is entered at `pos`. -/
def enteredChild? (t : Tree) (side : Side) (pos id : Nat) : Option Nat :=
  (t.children id).find? fun child => (t.span? child).any (side.enters · pos)

/-- Go down from `id` to the first entered child, at most `steps` times. -/
def descend (t : Tree) (side : Side) (pos : Nat) : (steps : Nat) → (id : Nat) → Nat
  | 0, id => id
  | steps + 1, id =>
    match t.enteredChild? side pos id with
    | some child => descend t side pos steps child
    | none => id

/-- The innermost node around `pos`; the root when no other node is entered. -/
def resolve (t : Tree) (pos : Nat) (side : Side) : Nat := t.descend side pos t.nodes.size t.root

/-- The node `id` and the nodes above it, following at most `steps` links. -/
def ascend (t : Tree) : (steps : Nat) → (id : Nat) → List Nat
  | 0, id => [id]
  | steps + 1, id =>
    match t.parent? id with
    | some parent => id :: ascend t steps parent
    | none => [id]

/-- The ancestors of `id`, nearest first. `id` itself comes first, known or not. -/
def ancestors (t : Tree) (id : Nat) : List Nat := t.ascend t.nodes.size id

/-- The sibling just before `id` among its parent's children. -/
def prevSibling? (t : Tree) (id : Nat) : Option Nat := do
  let parent ← t.node? (← t.parent? id)
  let place ← parent.children.idxOf? id
  if place = 0 then none else parent.children[place - 1]?

/-- The first child of `id` that has the kind. -/
def childOfKind? (t : Tree) (id : Nat) (kind : Kind) : Option Nat :=
  (t.children id).find? fun child => t.kind? child == some kind

/-- The greatest number of children that one node lists. -/
def width (t : Tree) : Nat := t.nodes.foldl (fun w n => max w n.children.length) 0

/-- A bound on the steps of a visit: a node whose descendants reach `h` levels down costs at most
`(width + 1) ^ (h + 1)` of them. -/
def visitBound (t : Tree) : Nat := Nat.pow (t.width + 1) (t.nodes.size + 1)

/-- Visit the nodes on the stack, each one before its children and the children in order. -/
def walk (t : Tree) : (steps : Nat) → (stack : List Nat) → List Nat
  | 0, _ => []
  | _ + 1, [] => []
  | steps + 1, id :: stack =>
    match t.node? id with
    | some n => id :: walk t steps (n.children ++ stack)
    | none => walk t steps stack

/-- Every node in document order, each before its children. -/
def preorder (t : Tree) : List Nat := t.walk t.visitBound [t.root]

end LogQL.Tree
