import LogQL.Proofs.Tree.WellFormed
import LogQL.Tree.Navigation

/-!
# Looking up the node around a position

`resolve` goes down from the root, and each step goes to a node that is entered at the position.
So it stops at the root or at an entered node (`resolve_entered`), whatever the links are; what the
root lacks, a parent and so a sibling, tells the two cases apart in a tree that was built.
-/

namespace LogQL.Tree

/-- A tree that came out of a sequence of events. -/
def Built (t : Tree) : Prop :=
  ∃ (root : Kind) (length : Nat) (events : List Event), ofEvents root length events = .ok t

/-- A node over a span that is entered at the position. -/
def Entered (t : Tree) (side : Side) (pos id : Nat) : Prop :=
  ∃ s, t.span? id = some s ∧ side.enters s pos = true

variable {t : Tree} {side : Side} {pos id child : Nat}

theorem Side.enters_before_iff {s : Span} :
    Side.before.enters s pos = true ↔ s.start < pos ∧ pos ≤ s.stop := by
  simp [Side.enters]

theorem entered_of_enteredChild? (h : t.enteredChild? side pos id = some child) :
    child ∈ t.children id ∧ t.Entered side pos child := by
  unfold enteredChild? at h
  refine ⟨List.mem_of_find?_eq_some h, ?_⟩
  have henters := List.find?_some h
  rw [Option.any_eq_true_iff_get] at henters
  obtain ⟨hs, henters⟩ := henters
  exact ⟨_, Option.eq_some_of_isSome hs, henters⟩

/-- A descent ends where it began or at an entered node. -/
theorem descend_entered (t : Tree) (side : Side) (pos steps id : Nat) :
    t.descend side pos steps id = id ∨ t.Entered side pos (t.descend side pos steps id) := by
  induction steps generalizing id with
  | zero => exact Or.inl rfl
  | succ steps ih =>
      unfold descend
      cases hc : t.enteredChild? side pos id with
      | none => exact Or.inl rfl
      | some child =>
          -- the child is entered, so it does for the end when the descent stops there
          rcases ih child with he | he
          · right
            show t.Entered side pos (t.descend side pos steps child)
            rw [he]
            exact (entered_of_enteredChild? hc).2
          · exact Or.inr he

/-- **The node looked up is the root or is entered.** -/
theorem resolve_entered (t : Tree) (pos : Nat) (side : Side) :
    t.resolve pos side = t.root ∨ t.Entered side pos (t.resolve pos side) :=
  descend_entered t side pos t.nodes.size t.root

/-! ## What the root lacks -/

theorem Built.parent?_root (h : t.Built) : t.parent? t.root = none := by
  obtain ⟨root, length, events, h⟩ := h
  obtain ⟨hroot, -, hparent⟩ := (wellFormed_of_ofEvents h).root
  rw [hroot, hparent]

/-- A node with a parent that was looked up is entered. -/
theorem Built.entered_resolve (h : t.Built) {p : Nat}
    (hp : t.parent? (t.resolve pos side) = some p) : t.Entered side pos (t.resolve pos side) := by
  rcases resolve_entered t pos side with he | he
  · rw [he, h.parent?_root] at hp
    exact absurd hp (by simp)
  · exact he

end LogQL.Tree
