import LogQL.Text.Bytes
import LogQL.Tree.Kind

/-!
# Syntax trees

A tree is a table of nodes and the index of its root. Nodes refer to each other by index, to
their parent as well as to their children, and nothing forces the two kinds of links to agree:
a host may hand over a table whose links dangle. In a tree that comes out of `Tree.Draft` they
agree.
-/

namespace LogQL

namespace Tree

/-- The bytes from `start` up to, but not including, `stop`. -/
structure Span where
  start : Nat
  stop : Nat
  deriving DecidableEq, Repr, Inhabited

namespace Span

/-- The bytes that a span covers; an inverted span covers none. -/
def length (s : Span) : Nat := s.stop - s.start

/-- The text that a span covers, if both its ends are boundaries of the text. -/
def slice? (s : Span) (text : List Char) : Option (List Char) := Text.slice? text s.start s.stop

end Span

/-- One node of a syntax tree. -/
structure Node where
  kind : Kind
  span : Span
  /-- The parser could not read this region. -/
  isError : Bool
  parent : Option Nat
  children : List Nat
  deriving DecidableEq, Repr, Inhabited

/-- Which boundary a position may touch when the node around it is looked up. -/
inductive Side where
  /-- The node that ends at the position, not one that begins there. -/
  | before
  /-- Either. -/
  | around
  /-- The node that begins at the position, not one that ends there. -/
  | after
  deriving DecidableEq, Repr, Inhabited

namespace Side

/-- A negative bias looks before the position, a positive one after it. -/
def ofBias (bias : Int) : Side :=
  if bias < 0 then .before else if bias = 0 then .around else .after

/-- Whether a position counts as inside a span, seen from this side. -/
def enters (side : Side) (span : Span) (pos : Nat) : Bool :=
  match side with
  | .before => span.start < pos && pos ≤ span.stop
  | .around => span.start ≤ pos && pos ≤ span.stop
  | .after => span.start ≤ pos && pos < span.stop

end Side

end Tree

/-- A table of nodes and the index of the root among them. -/
structure Tree where
  nodes : Array Tree.Node
  root : Nat
  deriving DecidableEq, Repr, Inhabited

namespace Tree

/-- The node with this index. -/
def node? (t : Tree) (id : Nat) : Option Node := t.nodes[id]?

/-- The kind of the node with this index. -/
def kind? (t : Tree) (id : Nat) : Option Kind := (t.node? id).map Node.kind

/-- The span of the node with this index. -/
def span? (t : Tree) (id : Nat) : Option Span := (t.node? id).map Node.span

/-- The parent of the node with this index. -/
def parent? (t : Tree) (id : Nat) : Option Nat := (t.node? id).bind Node.parent

/-- The children of the node with this index, none for an unknown node. -/
def children (t : Tree) (id : Nat) : List Nat := ((t.node? id).map Node.children).getD []

end Tree

end LogQL
