import LogQL.Proofs.Tree.Recorded
import Mathlib.Logic.Relation

/-!
# Which events make a tree, and what tree

`ofEvents` refuses a sequence of events for its first mistake, else for what it leaves open, else
for the first node that leaves its parent. When it does not refuse, the table it has built is
well formed: the links agree, and since each node lies inside its parent, it lies inside everything
above it, up to the root and so inside the text.

All of this is said of the table of the draft, and `records_run` tells from the events alone which
nodes it holds, over which spans and below which parents.
-/

namespace LogQL.Tree

/-! ## Nodes and their parents -/

/-- A node whose span is not inside that of its parent. -/
def LeavesParent (nodes : Array Node) (n : Node) : Prop :=
  ∃ (p : Nat) (outer : Node), n.parent = some p ∧ nodes[p]? = some outer ∧
    (n.span.start < outer.span.start ∨ outer.span.stop < n.span.stop)

/-- Every node that has a parent lies inside it. -/
def Contained (nodes : Array Node) : Prop :=
  ∀ (id p : Nat) (n outer : Node),
    nodes[id]? = some n → n.parent = some p → nodes[p]? = some outer →
    outer.span.start ≤ n.span.start ∧ n.span.stop ≤ outer.span.stop

theorem strays_iff {nodes : Array Node} {n : Node} :
    Draft.strays nodes n = true ↔ LeavesParent nodes n := by
  unfold Draft.strays LeavesParent
  cases hparent : n.parent with
  | none => simp
  | some p =>
      cases houter : nodes[p]? with
      | none => simp [houter]
      | some outer => simp [houter]

theorem contained_iff {nodes : Array Node} :
    Contained nodes ↔ nodes.find? (Draft.strays nodes) = none := by
  rw [Array.find?_eq_none]
  constructor
  · intro h n hn hs
    obtain ⟨id, hid⟩ := Array.getElem?_of_mem hn
    obtain ⟨p, outer, hp, ho, hout⟩ := strays_iff.mp hs
    have := h id p n outer hid hp ho
    omega
  · intro h id p n outer hn hp ho
    have hs := h n (Array.mem_of_getElem? hn)
    rw [strays_iff] at hs
    constructor
    · exact Nat.le_of_not_lt fun hlt => hs ⟨p, outer, hp, ho, Or.inl hlt⟩
    · exact Nat.le_of_not_lt fun hlt => hs ⟨p, outer, hp, ho, Or.inr hlt⟩

/-- A node with the least id among those that leave their parent. -/
def FirstStray (nodes : Array Node) (n : Node) : Prop :=
  ∃ id : Nat, nodes[id]? = some n ∧ LeavesParent nodes n ∧
    ∀ (j : Nat) (m : Node), j < id → nodes[j]? = some m → ¬ LeavesParent nodes m

theorem find?_strays_iff {nodes : Array Node} {n : Node} :
    nodes.find? (Draft.strays nodes) = some n ↔ FirstStray nodes n := by
  rw [Array.find?_eq_some_iff_getElem]
  constructor
  · rintro ⟨hs, id, hid, rfl, hbefore⟩
    refine ⟨id, Array.getElem?_eq_getElem hid, strays_iff.mp hs, fun j m hj hm hl => ?_⟩
    obtain ⟨hlt, rfl⟩ := Array.getElem?_eq_some_iff.mp hm
    have := hbefore j hj
    rw [strays_iff.mpr hl] at this
    exact absurd this (by decide)
  · rintro ⟨id, hn, hl, hbefore⟩
    obtain ⟨hid, rfl⟩ := Array.getElem?_eq_some_iff.mp hn
    refine ⟨strays_iff.mpr hl, id, hid, rfl, fun j hj => ?_⟩
    have := hbefore j _ hj (Array.getElem?_eq_getElem (Nat.lt_trans hj hid))
    rw [← strays_iff] at this
    simpa using this

/-! ## Well-formed trees -/

/-- `a` is `id` or one of the nodes above it. -/
def Above (t : Tree) : Nat → Nat → Prop := Relation.ReflTransGen fun id p => t.parent? id = some p

/-- What a host may rely on in a tree over `length` bytes that was built from events. -/
structure WellFormed (length : Nat) (t : Tree) : Prop where
  /-- The root is the first node, covers the text and has no parent. -/
  root : t.root = 0 ∧ t.span? 0 = some ⟨0, length⟩ ∧ t.parent? 0 = none
  /-- Every other node has a parent, which comes earlier. -/
  parent_lt : ∀ id, 0 < id → id < t.nodes.size → ∃ p, t.parent? id = some p ∧ p < id
  /-- A node is on the list of its parent, once, and on no other. -/
  count_children : ∀ id p, (t.children p).count id = if t.parent? id = some p then 1 else 0
  /-- Lists of children run upwards. -/
  sorted : ∀ p, (t.children p).Pairwise (· < ·)
  /-- Spans are not inverted. -/
  ordered : ∀ id s, t.span? id = some s → s.start ≤ s.stop
  /-- A node lies inside every node above it. -/
  inside : ∀ id a s outer, Above t id a → t.span? id = some s → t.span? a = some outer →
    outer.start ≤ s.start ∧ s.stop ≤ outer.stop
  /-- So every node lies in the text. -/
  le_length : ∀ id s, t.span? id = some s → s.stop ≤ length

theorem span?_eq_some_iff {t : Tree} {id : Nat} {s : Span} :
    t.span? id = some s ↔ ∃ n : Node, t.nodes[id]? = some n ∧ n.span = s := by
  simp [span?, node?]

theorem parent?_eq_some_iff {t : Tree} {id p : Nat} :
    t.parent? id = some p ↔ ∃ n : Node, t.nodes[id]? = some n ∧ n.parent = some p := by
  unfold parent? node?
  exact Option.bind_eq_some_iff

/-- Where every node but the first has a parent before it, every node has the first above it. -/
theorem above_first {t : Tree}
    (h : ∀ id, 0 < id → id < t.nodes.size → ∃ p, t.parent? id = some p ∧ p < id) {id : Nat}
    (hid : id < t.nodes.size) : Above t id 0 := by
  induction id using Nat.strongRecOn with
  | ind id ih =>
    rcases Nat.eq_zero_or_pos id with rfl | hpos
    · exact Relation.ReflTransGen.refl
    · obtain ⟨p, hp, hlt⟩ := h id hpos hid
      exact Relation.ReflTransGen.head hp (ih p hlt (Nat.lt_trans hlt hid))

section

variable {nodes : Array Node} {length : Nat}

/-- The links of a table, from the child and from the parent. -/
theorem Linked.mem_children_iff (h : Linked nodes) {id p : Nat} :
    id ∈ Tree.children ⟨nodes, 0⟩ p ↔ Tree.parent? ⟨nodes, 0⟩ id = some p := by
  rw [parent?_eq_some_iff]
  unfold Tree.children Tree.node?
  dsimp only
  cases hp : nodes[p]? with
  | some n => exact h.mem_children hp id
  | none =>
      -- a parent comes before its children, so it is in the table
      simp only [Option.map_none, Option.getD_none, List.not_mem_nil, false_iff]
      rintro ⟨n, hn, hparent⟩
      have hlt := h.lt_of_parent hn hparent
      have hsize := size_of_getElem? hn
      rw [Array.getElem?_eq_none_iff] at hp
      omega

theorem Linked.sorted_children (h : Linked nodes) (p : Nat) :
    (Tree.children ⟨nodes, 0⟩ p).Pairwise (· < ·) := by
  unfold Tree.children Tree.node?
  dsimp only
  cases hp : nodes[p]? with
  | some n => exact h.sorted hp
  | none => exact List.Pairwise.nil

/-- Being inside the parent carries over to everything above. -/
theorem Contained.above (h : Contained nodes) {id a : Nat} (ha : Above ⟨nodes, 0⟩ id a) :
    ∀ {n outer : Node}, nodes[id]? = some n → nodes[a]? = some outer →
      outer.span.start ≤ n.span.start ∧ n.span.stop ≤ outer.span.stop := by
  -- on the way up from `id`, the inside of one node is inside the next
  induction ha with
  | refl =>
      intro n outer hn ho
      obtain rfl : n = outer := Option.some.inj (hn.symm.trans ho)
      exact ⟨Nat.le_refl _, Nat.le_refl _⟩
  | @tail b a _ hlink ih =>
      intro n outer hn ho
      obtain ⟨m, hm, hparent⟩ := parent?_eq_some_iff.mp hlink
      have hin := ih hn hm
      have hout := h b a m outer hm hparent ho
      omega

/-- **A linked table in which every node lies inside its parent is a well-formed tree.** -/
theorem wellFormed_of_linked (h : Linked nodes) (hc : Contained nodes)
    (hroot : ∃ n, nodes[0]? = some n ∧ n.span = ⟨0, length⟩) :
    WellFormed length ⟨nodes, 0⟩ := by
  obtain ⟨r, hr, hspan⟩ := hroot
  have hinside : ∀ id a s outer, Above ⟨nodes, 0⟩ id a → Tree.span? ⟨nodes, 0⟩ id = some s →
      Tree.span? ⟨nodes, 0⟩ a = some outer → outer.start ≤ s.start ∧ s.stop ≤ outer.stop := by
    intro id a s outer ha hs ho
    obtain ⟨n, hn, rfl⟩ := span?_eq_some_iff.mp hs
    obtain ⟨m, hm, rfl⟩ := span?_eq_some_iff.mp ho
    exact hc.above ha hn hm
  have hroot' : Tree.span? ⟨nodes, 0⟩ 0 = some ⟨0, length⟩ := span?_eq_some_iff.mpr ⟨r, hr, hspan⟩
  have hparent : ∀ id, 0 < id → id < nodes.size →
      ∃ p, Tree.parent? ⟨nodes, 0⟩ id = some p ∧ p < id := by
    intro id hpos hid
    obtain ⟨p, hp, hlt⟩ := h.parent_lt (Array.getElem?_eq_getElem hid) hpos
    exact ⟨p, parent?_eq_some_iff.mpr ⟨_, Array.getElem?_eq_getElem hid, hp⟩, hlt⟩
  refine ⟨⟨rfl, hroot', ?_⟩, hparent, ?_, h.sorted_children, ?_, hinside, ?_⟩
  · unfold Tree.parent? Tree.node?
    dsimp only
    rw [hr, Option.bind_some, h.root hr]
  · -- a list that runs upwards holds nothing twice
    intro id p
    have hnd : (Tree.children ⟨nodes, 0⟩ p).Nodup := (h.sorted_children p).imp Nat.ne_of_lt
    rw [hnd.count]
    simp only [h.mem_children_iff]
  · intro id s hs
    obtain ⟨n, hn, rfl⟩ := span?_eq_some_iff.mp hs
    exact h.ordered hn
  · intro id s hs
    obtain ⟨n, hn, -⟩ := span?_eq_some_iff.mp hs
    exact (hinside id 0 s _ (above_first hparent (size_of_getElem? hn)) hs hroot').2

end

/-! ## The end of a draft -/

variable {root : Kind} {length : Nat} {events : List Event}

/-- The three reasons for a refusal, in the order in which they are looked for. -/
theorem ofEvents_eq (root : Kind) (length : Nat) (events : List Event) :
    ofEvents root length events =
      match (mistakes events).head? with
      | some fault => .error fault
      | none =>
        if (startsAfter events).isEmpty then
          match (Draft.run root length events).nodes.find?
              (Draft.strays (Draft.run root length events).nodes) with
          | some n => .error (.outsideParent n.kind.name n.span)
          | none => .ok ⟨(Draft.run root length events).nodes, 0⟩
        else .error (.unclosed (startsAfter events).length) := by
  have hlen := Draft.length_pending_run root length events
  have hempty : (Draft.run root length events).pending.isEmpty = (startsAfter events).isEmpty := by
    rw [Bool.eq_iff_iff, List.isEmpty_iff_length_eq_zero, List.isEmpty_iff_length_eq_zero, hlen]
  rw [← Draft.fault_run root length events, ← hlen, ← hempty]
  rfl

theorem ofEvents_eq_ok_iff {t : Tree} :
    ofEvents root length events = .ok t ↔
      mistakes events = [] ∧ startsAfter events = [] ∧
        Contained (Draft.run root length events).nodes ∧
        t = ⟨(Draft.run root length events).nodes, 0⟩ := by
  rw [ofEvents_eq, contained_iff]
  cases mistakes events with
  | cons fault _ => simp
  | nil =>
      cases startsAfter events with
      | cons start _ => simp
      | nil =>
          cases (Draft.run root length events).nodes.find?
              (Draft.strays (Draft.run root length events).nodes) with
          | some n => simp
          | none => simp [eq_comm]

theorem ofEvents_eq_error_iff {fault : Fault} :
    ofEvents root length events = .error fault ↔
      (mistakes events).head? = some fault ∨
      mistakes events = [] ∧ startsAfter events ≠ [] ∧
        fault = .unclosed (startsAfter events).length ∨
      mistakes events = [] ∧ startsAfter events = [] ∧
        ∃ n, FirstStray (Draft.run root length events).nodes n ∧
          fault = .outsideParent n.kind.name n.span := by
  rw [ofEvents_eq]
  cases mistakes events with
  | cons first _ => simp
  | nil =>
      cases startsAfter events with
      | cons start _ => simp [eq_comm]
      | nil =>
          simp only [← find?_strays_iff]
          cases (Draft.run root length events).nodes.find?
              (Draft.strays (Draft.run root length events).nodes) with
          | some n => simp [eq_comm]
          | none => simp

theorem wellFormed_of_ofEvents {t : Tree} (h : ofEvents root length events = .ok t) :
    WellFormed length t := by
  obtain ⟨-, -, hc, rfl⟩ := ofEvents_eq_ok_iff.mp h
  have hs := Draft.sound_run root length events
  exact wellFormed_of_linked hs.linked hc hs.root

/--
**What a sequence of events comes to.** The table holds the nodes that the events describe. There is
a tree exactly when no event is a mistake, nothing is left open and every node lies inside its
parent; the tree is that table, and it is well formed. Otherwise the first mistake is given, else
the number of nodes left open, else the first node that leaves its parent.
-/
theorem ofEvents_outcome (root : Kind) (length : Nat) (events : List Event) :
    Records events (Draft.run root length events).nodes ∧
    (∀ t, ofEvents root length events = .ok t ↔
      mistakes events = [] ∧ startsAfter events = [] ∧
        Contained (Draft.run root length events).nodes ∧
        t = ⟨(Draft.run root length events).nodes, 0⟩) ∧
    (∀ fault, ofEvents root length events = .error fault ↔
      (mistakes events).head? = some fault ∨
      mistakes events = [] ∧ startsAfter events ≠ [] ∧
        fault = .unclosed (startsAfter events).length ∨
      mistakes events = [] ∧ startsAfter events = [] ∧
        ∃ n, FirstStray (Draft.run root length events).nodes n ∧
          fault = .outsideParent n.kind.name n.span) ∧
    ∀ t, ofEvents root length events = .ok t → WellFormed length t :=
  ⟨records_run root length events, fun _ => ofEvents_eq_ok_iff, fun _ => ofEvents_eq_error_iff,
    fun _ => wellFormed_of_ofEvents⟩

end LogQL.Tree
