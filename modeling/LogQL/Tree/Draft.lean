import LogQL.Tree.Basic

/-!
# Building a syntax tree

A parser reports what it sees as a sequence of events in document order, and a draft collects
them. A draft goes on after a mistake and remembers the first one; `Draft.finish` gives the tree
only if there was none, every opened node was closed, and every node lies inside its parent.
-/

namespace LogQL.Tree

/-- Why no tree comes out of a sequence of events. -/
inductive Fault where
  | closeWithoutOpen
  /-- So many nodes were never closed. -/
  | unclosed (count : Nat)
  | inverted (start stop : Nat)
  | outsideParent (kind : String) (span : Span)
  deriving DecidableEq, Repr, Inhabited

namespace Fault

/-- The text of a fault. -/
def message : Fault → String
  | .closeWithoutOpen => "close() called with no open node"
  | .unclosed count => s!"{count} node(s) left open"
  | .inverted start stop => s!"Inverted range [{start}, {stop})"
  | .outsideParent kind span =>
    s!"Node {kind} [{span.start}, {span.stop}) lies outside its parent"

end Fault

/-- One step of a parser. -/
inductive Event where
  /-- A node begins; its end comes with the matching `close`. -/
  | opened (kind : Kind) (start : Nat)
  /-- The node opened last ends. -/
  | closed (stop : Nat)
  /-- A node without children. -/
  | leaf (kind : Kind) (span : Span)
  /-- A region that could not be read. -/
  | unreadable (span : Span)
  /-- The node added last could not be read. -/
  | markError
  deriving DecidableEq, Repr, Inhabited

/-- A tree under construction. -/
structure Draft where
  nodes : Array Node
  /-- The nodes still open, the innermost first. -/
  pending : List Nat
  /-- The first mistake. -/
  fault : Option Fault
  deriving DecidableEq, Repr, Inhabited

namespace Draft

/-- A draft whose root covers the first `length` bytes. -/
def start (root : Kind) (length : Nat) : Draft where
  nodes := #[⟨root, ⟨0, length⟩, false, none, []⟩]
  pending := []
  fault := none

/-- Remember a mistake, unless there is an earlier one. -/
def fail (d : Draft) (fault : Fault) : Draft := { d with fault := d.fault <|> some fault }

/-- Add a node below the innermost open one, or below the root when none is open. -/
def push (d : Draft) (kind : Kind) (span : Span) (isError : Bool) : Draft :=
  let parent := d.pending.headD 0
  let adopt (n : Node) : Node := { n with children := n.children ++ [d.nodes.size] }
  { d with nodes := (d.nodes.modify parent adopt).push ⟨kind, span, isError, some parent, []⟩ }

/-- Add a node that needs no closing, unless its span is inverted. -/
def pushLeaf (d : Draft) (kind : Kind) (span : Span) (isError : Bool) : Draft :=
  if span.stop < span.start then d.fail (.inverted span.start span.stop)
  else d.push kind span isError

/-- End the innermost open node. An end before its start counts as a mistake and is moved to the
start. -/
def close (d : Draft) (stop : Nat) : Draft :=
  match d.pending with
  | [] => d.fail .closeWithoutOpen
  | id :: rest =>
    let start := ((d.nodes[id]?).map (·.span.start)).getD 0
    let d := if stop < start then d.fail (.inverted start stop) else d
    { d with
      nodes := d.nodes.modify id fun n => { n with span := ⟨start, max stop start⟩ }
      pending := rest }

/-- Take one event into the draft. -/
def apply (d : Draft) : Event → Draft
  | .opened kind start =>
    let opened := d.push kind ⟨start, start⟩ false
    { opened with pending := d.nodes.size :: d.pending }
  | .closed stop => d.close stop
  | .leaf kind span => d.pushLeaf kind span false
  | .unreadable span => d.pushLeaf .error span true
  | .markError =>
    { d with nodes := d.nodes.modify (d.nodes.size - 1) fun n => { n with isError := true } }

/-- A node that reaches outside its parent. -/
def strays (nodes : Array Node) (n : Node) : Bool :=
  match n.parent.bind (nodes[·]?) with
  | some outer => n.span.start < outer.span.start || outer.span.stop < n.span.stop
  | none => false

/-- The tree, if the events describe one. -/
def finish (d : Draft) : Except Fault Tree :=
  match d.fault with
  | some fault => .error fault
  | none =>
    if d.pending.isEmpty then
      match d.nodes.find? (strays d.nodes) with
      | some n => .error (.outsideParent n.kind.name n.span)
      | none => .ok ⟨d.nodes, 0⟩
    else .error (.unclosed d.pending.length)

end Draft

/-- The tree that a sequence of events describes. -/
def ofEvents (root : Kind) (length : Nat) (events : List Event) : Except Fault Tree :=
  (events.foldl Draft.apply (Draft.start root length)).finish

end LogQL.Tree
