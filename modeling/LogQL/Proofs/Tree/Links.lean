import LogQL.Tree.Draft
import Mathlib.Data.List.Forall2

/-!
# The links of a draft

A draft keeps both directions of each link: a node names its parent, and the parent lists the
node. `Linked` says that the two always agree, that parents come before their children and that each
list of children runs upwards; it holds of the table at any moment, also after a mistake.

Two things happen to a table. `adopt` adds a node at the end and puts it last on its parent's list;
everything else changes a node in place and touches no link (`linked_modify`). Closing a node is of
the second kind, so a span that is rewritten after children were attached leaves the links alone.
-/

namespace LogQL.Tree

/-- The links of a table of nodes agree, and no span in it is inverted. -/
structure Linked (nodes : Array Node) : Prop where
  /-- The first node has no parent. -/
  root : ∀ {n : Node}, nodes[0]? = some n → n.parent = none
  /-- Every other node has one, and it comes earlier. -/
  parent_lt : ∀ {id : Nat} {n : Node}, nodes[id]? = some n → 0 < id →
    ∃ p, n.parent = some p ∧ p < id
  /-- A node lists those that name it as their parent. -/
  mem_children : ∀ {p : Nat} {n : Node}, nodes[p]? = some n → ∀ i,
    i ∈ n.children ↔ ∃ m : Node, nodes[i]? = some m ∧ m.parent = some p
  /-- It lists them in the order of their ids, each one once. -/
  sorted : ∀ {p : Nat} {n : Node}, nodes[p]? = some n → n.children.Pairwise (· < ·)
  /-- Spans are not inverted. -/
  ordered : ∀ {id : Nat} {n : Node}, nodes[id]? = some n → n.span.start ≤ n.span.stop

theorem size_of_getElem? {nodes : Array Node} {i : Nat} {n : Node} (h : nodes[i]? = some n) :
    i < nodes.size := by
  obtain ⟨hi, -⟩ := Array.getElem?_eq_some_iff.mp h
  exact hi

/-- A node that names a parent comes after it. -/
theorem Linked.lt_of_parent {nodes : Array Node} (h : Linked nodes) {i p : Nat} {n : Node}
    (hn : nodes[i]? = some n) (hp : n.parent = some p) : p < i := by
  rcases Nat.eq_zero_or_pos i with rfl | hpos
  · rw [h.root hn] at hp
    exact absurd hp (by simp)
  · obtain ⟨q, hq, hlt⟩ := h.parent_lt hn hpos
    rw [Option.some.inj (hp.symm.trans hq)]
    exact hlt

/-! ## Changing a node in place -/

theorem getElem?_modify_eq_some {nodes : Array Node} {k i : Nat} {f : Node → Node} {m : Node} :
    (nodes.modify k f)[i]? = some m ↔ ∃ n, nodes[i]? = some n ∧ m = if k = i then f n else n := by
  rw [Array.getElem?_modify]
  cases hn : nodes[i]? with
  | none => split <;> simp
  | some n => split <;> simp [eq_comm]

/-- **A change in place that leaves the links alone keeps the table linked.** -/
theorem linked_modify {nodes : Array Node} {k : Nat} {f : Node → Node} (h : Linked nodes)
    (hparent : ∀ n, (f n).parent = n.parent) (hchildren : ∀ n, (f n).children = n.children)
    (hspan : ∀ n, nodes[k]? = some n → (f n).span.start ≤ (f n).span.stop) :
    Linked (nodes.modify k f) where
  root := by
    intro m hm
    obtain ⟨n, hn, rfl⟩ := getElem?_modify_eq_some.mp hm
    have := h.root hn
    split <;> simp [hparent, this]
  parent_lt := by
    intro id m hm hpos
    obtain ⟨n, hn, rfl⟩ := getElem?_modify_eq_some.mp hm
    have := h.parent_lt hn hpos
    split <;> simpa [hparent] using this
  mem_children := by
    intro p m hm i
    obtain ⟨n, hn, rfl⟩ := getElem?_modify_eq_some.mp hm
    have hlist : (if k = p then f n else n).children = n.children := by
      split <;> simp [hchildren]
    rw [hlist, h.mem_children hn i]
    constructor
    · rintro ⟨c, hc, hcp⟩
      refine ⟨_, getElem?_modify_eq_some.mpr ⟨c, hc, rfl⟩, ?_⟩
      split <;> simp [hparent, hcp]
    · rintro ⟨c, hc, hcp⟩
      obtain ⟨c', hc', rfl⟩ := getElem?_modify_eq_some.mp hc
      refine ⟨c', hc', ?_⟩
      rw [← hcp]
      split <;> simp [hparent]
  sorted := by
    intro p m hm
    obtain ⟨n, hn, rfl⟩ := getElem?_modify_eq_some.mp hm
    have := h.sorted hn
    split <;> simpa [hchildren] using this
  ordered := by
    intro id m hm
    obtain ⟨n, hn, rfl⟩ := getElem?_modify_eq_some.mp hm
    split
    · rename_i hk
      exact hspan n (hk ▸ hn)
    · exact h.ordered hn

/-! ## Adding a node -/

/-- The table with a childless node added below `p`. -/
def adopt (nodes : Array Node) (p : Nat) (kind : Kind) (span : Span) (isError : Bool) :
    Array Node :=
  (nodes.modify p fun n => { n with children := n.children ++ [nodes.size] }).push
    ⟨kind, span, isError, some p, []⟩

section

variable {nodes : Array Node} {p : Nat} {kind : Kind} {span : Span} {isError : Bool}

theorem size_adopt : (adopt nodes p kind span isError).size = nodes.size + 1 := by
  rw [adopt, Array.size_push, Array.size_modify]

theorem adopt_last :
    (adopt nodes p kind span isError)[nodes.size]? = some ⟨kind, span, isError, some p, []⟩ := by
  rw [adopt, Array.getElem?_push, Array.size_modify, if_pos rfl]

theorem adopt_before {i : Nat} {m : Node} (hi : i ≠ nodes.size) :
    (adopt nodes p kind span isError)[i]? = some m ↔
      ∃ n, nodes[i]? = some n ∧
        m = if p = i then { n with children := n.children ++ [nodes.size] } else n := by
  rw [adopt, Array.getElem?_push, Array.size_modify, if_neg hi, getElem?_modify_eq_some]

/-- A node of the new table is the new one, or an old one with the same parent and span. -/
theorem adopt_cases {i : Nat} {m : Node} (h : (adopt nodes p kind span isError)[i]? = some m) :
    i = nodes.size ∧ m = ⟨kind, span, isError, some p, []⟩ ∨
      ∃ n, nodes[i]? = some n ∧ m.parent = n.parent ∧ m.span = n.span ∧
        m.children = if p = i then n.children ++ [nodes.size] else n.children := by
  by_cases hi : i = nodes.size
  · rw [hi, adopt_last] at h
    exact Or.inl ⟨hi, (Option.some.inj h).symm⟩
  · obtain ⟨n, hn, rfl⟩ := (adopt_before hi).mp h
    refine Or.inr ⟨n, hn, ?_⟩
    split <;> exact ⟨rfl, rfl, rfl⟩

/-- An old node stays, with the same kind, parent and span. -/
theorem adopt_of_old {i : Nat} {n : Node} (h : nodes[i]? = some n) :
    ∃ m, (adopt nodes p kind span isError)[i]? = some m ∧ m.kind = n.kind ∧
      m.parent = n.parent ∧ m.span = n.span := by
  have hi : i ≠ nodes.size := Nat.ne_of_lt (size_of_getElem? h)
  refine ⟨_, (adopt_before hi).mpr ⟨n, h, rfl⟩, ?_⟩
  split <;> exact ⟨rfl, rfl, rfl⟩

/-- Who names `q` as parent in the new table: who did before, and the new node if `q` is `p`. -/
theorem adopt_parent_iff {q i : Nat} :
    (∃ m, (adopt nodes p kind span isError)[i]? = some m ∧ m.parent = some q) ↔
      (∃ n, nodes[i]? = some n ∧ n.parent = some q) ∨ i = nodes.size ∧ p = q := by
  constructor
  · rintro ⟨m, hm, hq⟩
    rcases adopt_cases hm with ⟨hi, rfl⟩ | ⟨n, hn, hparent, -, -⟩
    · exact Or.inr ⟨hi, Option.some.inj hq⟩
    · exact Or.inl ⟨n, hn, hparent ▸ hq⟩
  · rintro (⟨n, hn, hq⟩ | ⟨rfl, rfl⟩)
    · obtain ⟨m, hm, -, hparent, -⟩ := adopt_of_old hn
      exact ⟨m, hm, hparent.trans hq⟩
    · exact ⟨_, adopt_last, rfl⟩

/-- **Adding a node below an earlier one keeps the table linked.** -/
theorem linked_adopt (h : Linked nodes) (hp : p < nodes.size) (hspan : span.start ≤ span.stop) :
    Linked (adopt nodes p kind span isError) where
  root := by
    intro m hm
    rcases adopt_cases hm with ⟨hi, -⟩ | ⟨n, hn, hparent, -, -⟩
    · omega
    · rw [hparent]; exact h.root hn
  parent_lt := by
    intro id m hm hpos
    rcases adopt_cases hm with ⟨rfl, rfl⟩ | ⟨n, hn, hparent, -, -⟩
    · exact ⟨p, rfl, hp⟩
    · rw [hparent]; exact h.parent_lt hn hpos
  mem_children := by
    intro q m hm i
    rw [adopt_parent_iff]
    rcases adopt_cases hm with ⟨rfl, rfl⟩ | ⟨n, hn, -, -, hlist⟩
    · -- nobody names the new node yet
      simp only [List.not_mem_nil, false_iff, not_or, not_and]
      refine ⟨?_, fun _ he => absurd hp (he ▸ Nat.lt_irrefl _)⟩
      rintro ⟨c, hc, hcp⟩
      have hi := size_of_getElem? hc
      have hlt := h.lt_of_parent hc hcp
      omega
    · rw [hlist, ← h.mem_children hn i]
      by_cases hpq : p = q
      · simp [hpq]
      · simp [hpq]
  sorted := by
    intro q m hm
    rcases adopt_cases hm with ⟨-, rfl⟩ | ⟨n, hn, -, -, hlist⟩
    · exact List.Pairwise.nil
    · rw [hlist]
      split
      · -- the new id is the greatest, and it goes to the end
        refine List.pairwise_append.mpr ⟨h.sorted hn, List.pairwise_singleton .., ?_⟩
        intro i hi j hj
        obtain ⟨c, hc, -⟩ := (h.mem_children hn i).mp hi
        rw [List.mem_singleton.mp hj]
        exact size_of_getElem? hc
      · exact h.sorted hn
  ordered := by
    intro id m hm
    rcases adopt_cases hm with ⟨-, rfl⟩ | ⟨n, hn, -, hsame, -⟩
    · exact hspan
    · rw [hsame]; exact h.ordered hn

end

end LogQL.Tree
