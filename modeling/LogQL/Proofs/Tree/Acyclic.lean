import LogQL.Proofs.Tree.Resolve
import Mathlib.Algebra.Order.BigOperators.Group.List
import Mathlib.Algebra.Order.Ring.Nat
import Mathlib.Computability.StateTransition
import Mathlib.Data.Finset.Card
import Mathlib.Data.Finset.Range

/-!
# Walks that come to an end

A walk along the links of a tree does not remember where it has been, so on a cycle it goes on for
ever. The walks of this file are loops without a bound, and `none` stands for one that has no end.
On a table whose links form no cycle all of them end, and where the bounded ones do. On a cycle they
really do not (`climb_ends_iff`).

The reason is a rank. Along links without a cycle the number of nodes that can still be reached gets
smaller with each step (`exists_rank`), and it is never more than the number of nodes, so that many
steps are enough to go down or up. A visit of everything works off a stack. It is paid for by a sum
over the stack, in which a node of rank `h` counts `(width + 1) ^ (h + 1)`: the children of a node
cost less than the node itself (`childrenCost_lt`).

Neither do parents and children have to agree for this, nor do links have to lead anywhere.
-/

namespace LogQL.Tree

open Relation

variable {t : Tree} {side : Side} {pos : Nat} {rank : Nat → Nat}

/-! ## Loops without a bound -/

section Outcome

variable {σ : Type} {step : σ → Option σ} {s s' : σ}

/-- The state in which a loop stops, which it does where there is no next one. `none` stands for a
loop that never stops. -/
noncomputable def outcome (step : σ → Option σ) (s : σ) : Option σ :=
  open Classical in (StateTransition.eval step s).toOption

theorem outcome_eq_some_iff :
    outcome step s = some s' ↔ StateTransition.Reaches step s s' ∧ step s' = none := by
  classical
  exact Part.toOption_eq_some_iff.trans StateTransition.mem_eval

theorem outcome_of_none (h : step s = none) : outcome step s = some s :=
  outcome_eq_some_iff.mpr ⟨.refl, h⟩

theorem outcome_of_some (h : step s = some s') : outcome step s = outcome step s' := by
  unfold outcome
  congr 1
  exact StateTransition.reaches_eval (.single h)

/-- **A loop does not stop** as long as there is always a next state that is like the one before. -/
theorem outcome_eq_none (again : σ → Prop)
    (hagain : ∀ s, again s → ∃ s', step s = some s' ∧ again s') (h : again s) :
    outcome step s = none := by
  by_contra hsome
  obtain ⟨last, hlast⟩ := Option.ne_none_iff_exists'.mp hsome
  obtain ⟨hreach, hnone⟩ := outcome_eq_some_iff.mp hlast
  have hall : ∀ s', StateTransition.Reaches step s s' → again s' := by
    intro s' hs'
    induction hs' with
    | refl => exact h
    | tail _ hnext ih =>
        obtain ⟨next, hs, hnextAgain⟩ := hagain _ ih
        obtain rfl := Option.some.inj (hs.symm.trans hnext)
        exact hnextAgain
  obtain ⟨s', hs', -⟩ := hagain last (hall last hreach)
  exact absurd (hnone.symm.trans hs') (by simp)

end Outcome

/-- Go down to the first entered child until there is none. -/
noncomputable def seek (t : Tree) (side : Side) (pos id : Nat) : Option Nat :=
  outcome (t.enteredChild? side pos) id

/-- Go on to the parent and put it behind what has been found so far. -/
def stepUp (t : Tree) : List Nat × Nat → Option (List Nat × Nat)
  | (found, id) => (t.parent? id).map fun parent => (found ++ [parent], parent)

/-- The node `id` and all nodes above it. -/
noncomputable def climb (t : Tree) (id : Nat) : Option (List Nat) :=
  (outcome t.stepUp ([id], id)).map Prod.fst

/-- Take a node off the stack, put it behind those seen so far and its children onto the stack. -/
def stepVisit (t : Tree) : List Nat × List Nat → Option (List Nat × List Nat)
  | (_, []) => none
  | (seen, id :: stack) =>
    match t.node? id with
    | some n => some (seen ++ [id], n.children ++ stack)
    | none => some (seen, stack)

/-- Visit the nodes on the stack, each one before its children, until the stack is empty. -/
noncomputable def visit (t : Tree) (stack : List Nat) : Option (List Nat) :=
  (outcome t.stepVisit ([], stack)).map Prod.fst

/-! ## Links without a cycle -/

/-- No node is above itself, and none is below itself. -/
structure Acyclic (t : Tree) : Prop where
  parents : ∀ id, ¬TransGen (fun a b => t.parent? a = some b) id id
  children : ∀ id, ¬TransGen (fun a b => b ∈ t.children a) id id

/-- **Along links without a cycle something gets smaller**, and it is at most the number of nodes
that have links. -/
theorem exists_rank {r : Nat → Nat → Prop} {size : Nat} (hlt : ∀ a b, r a b → a < size)
    (hacyclic : ∀ a, ¬TransGen r a a) :
    ∃ rank : Nat → Nat, (∀ a b, r a b → rank b < rank a) ∧ ∀ a, rank a ≤ size := by
  classical
  let reached (a : Nat) : Finset Nat := (Finset.range size).filter fun b => ReflTransGen r a b
  refine ⟨fun a => (reached a).card, fun a b hab => Finset.card_lt_card ?_, fun a => ?_⟩
  · -- `a` reaches all that `b` reaches, and itself; `b` does not reach `a`
    refine (Finset.ssubset_iff_of_subset fun c hc => ?_).mpr ⟨a, ?_, fun ha => ?_⟩
    · obtain ⟨hc, hbc⟩ := Finset.mem_filter.mp hc
      exact Finset.mem_filter.mpr ⟨hc, hbc.head hab⟩
    · exact Finset.mem_filter.mpr ⟨Finset.mem_range.mpr (hlt a b hab), .refl⟩
    · exact hacyclic a (TransGen.head' hab (Finset.mem_filter.mp ha).2)
  · exact (Finset.card_filter_le ..).trans_eq (Finset.card_range size)

theorem lt_size_of_node? {id : Nat} {n : Node} (h : t.node? id = some n) : id < t.nodes.size :=
  size_of_getElem? h

theorem exists_parentRank (h : ∀ id, ¬TransGen (fun a b => t.parent? a = some b) id id) :
    ∃ rank : Nat → Nat, (∀ id p, t.parent? id = some p → rank p < rank id) ∧
      ∀ id, rank id ≤ t.nodes.size := by
  refine exists_rank (fun id p hp => ?_) h
  obtain ⟨n, hn, -⟩ := parent?_eq_some_iff.mp hp
  exact lt_size_of_node? hn

theorem mem_children_iff {id child : Nat} :
    child ∈ t.children id ↔ ∃ n, t.node? id = some n ∧ child ∈ n.children := by
  unfold children
  cases t.node? id <;> simp

theorem exists_childRank (h : ∀ id, ¬TransGen (fun a b => b ∈ t.children a) id id) :
    ∃ rank : Nat → Nat, (∀ id child, child ∈ t.children id → rank child < rank id) ∧
      ∀ id, rank id ≤ t.nodes.size := by
  refine exists_rank (fun id child hc => ?_) h
  obtain ⟨n, hn, -⟩ := mem_children_iff.mp hc
  exact lt_size_of_node? hn

/-! ## Up and down -/

/-- As many steps as the rank says are enough to go up. -/
theorem climb_eq (hrank : ∀ id p, t.parent? id = some p → rank p < rank id) {steps id : Nat}
    (h : rank id ≤ steps) (below : List Nat) :
    (outcome t.stepUp (below ++ [id], id)).map Prod.fst = some (below ++ t.ascend steps id) := by
  induction steps generalizing id below with
  | zero =>
      cases hp : t.parent? id with
      | none =>
          have hstop : t.stepUp (below ++ [id], id) = none := by rw [stepUp, hp]; rfl
          rw [outcome_of_none hstop]
          rfl
      | some p => exact absurd (hrank id p hp) (by omega)
  | succ steps ih =>
      rw [ascend]
      cases hp : t.parent? id with
      | none =>
          have hstop : t.stepUp (below ++ [id], id) = none := by rw [stepUp, hp]; rfl
          rw [outcome_of_none hstop]
          rfl
      | some p =>
          have hlt := hrank id p hp
          have hnext : t.stepUp (below ++ [id], id) = some (below ++ [id] ++ [p], p) := by
            rw [stepUp, hp]
            rfl
          rw [outcome_of_some hnext, ih (by omega), List.append_assoc, List.singleton_append]

/-- As many steps as the rank says are enough to go down. -/
theorem seek_eq (hrank : ∀ id child, child ∈ t.children id → rank child < rank id) {steps id : Nat}
    (h : rank id ≤ steps) : t.seek side pos id = some (t.descend side pos steps id) := by
  induction steps generalizing id with
  | zero =>
      cases hc : t.enteredChild? side pos id with
      | none => exact outcome_of_none hc
      | some child =>
          exact absurd (hrank id child (entered_of_enteredChild? hc).1) (by omega)
  | succ steps ih =>
      rw [descend]
      cases hc : t.enteredChild? side pos id with
      | none => exact outcome_of_none hc
      | some child =>
          have hlt := hrank id child (entered_of_enteredChild? hc).1
          exact (outcome_of_some hc).trans (ih (by omega))

/-! ## Visiting everything -/

/-- What the visit of these nodes may cost. -/
def cost (t : Tree) (rank : Nat → Nat) (ids : List Nat) : Nat :=
  (ids.map fun id => (t.width + 1) ^ (rank id + 1)).sum

theorem le_foldl_max (nodes : List Node) (w : Nat) :
    let width := nodes.foldl (fun w n => max w n.children.length) w
    w ≤ width ∧ ∀ n ∈ nodes, n.children.length ≤ width := by
  induction nodes generalizing w with
  | nil => exact ⟨Nat.le_refl w, by simp⟩
  | cons m nodes ih =>
      obtain ⟨hw, hnodes⟩ := ih (max w m.children.length)
      refine ⟨Nat.le_trans (Nat.le_max_left ..) hw, fun n hn => ?_⟩
      rcases List.mem_cons.mp hn with rfl | hn
      · exact Nat.le_trans (Nat.le_max_right ..) hw
      · exact hnodes n hn

theorem length_children_le_width {id : Nat} {n : Node} (h : t.node? id = some n) :
    n.children.length ≤ t.width := by
  rw [width, ← Array.foldl_toList]
  exact (le_foldl_max t.nodes.toList 0).2 n (Array.mem_toList_iff.mpr (Array.mem_of_getElem? h))

/-- **The children of a node cost less than the node.** -/
theorem childrenCost_lt (hrank : ∀ id child, child ∈ t.children id → rank child < rank id)
    {id : Nat} {n : Node} (h : t.node? id = some n) :
    t.cost rank n.children < (t.width + 1) ^ (rank id + 1) := by
  have hone : ∀ c ∈ n.children, (t.width + 1) ^ (rank c + 1) ≤ (t.width + 1) ^ rank id := by
    intro c hc
    have hlt := hrank id c (mem_children_iff.mpr ⟨n, h, hc⟩)
    exact Nat.pow_le_pow_right (Nat.succ_pos _) hlt
  have hpos : 0 < (t.width + 1) ^ rank id := Nat.pow_pos (Nat.succ_pos _)
  calc t.cost rank n.children
      ≤ n.children.length * (t.width + 1) ^ rank id := by
        have hsum := List.sum_le_card_nsmul (n.children.map fun c => (t.width + 1) ^ (rank c + 1))
          ((t.width + 1) ^ rank id) (by simpa using hone)
        rw [List.length_map] at hsum
        exact hsum
    _ ≤ t.width * (t.width + 1) ^ rank id :=
        Nat.mul_le_mul_right _ (length_children_le_width h)
    _ < (t.width + 1) ^ (rank id + 1) := by
        rw [Nat.pow_succ, Nat.mul_comm, Nat.mul_succ]
        omega

/-- As many steps as the stack may cost are enough to visit everything on it. -/
theorem visit_eq (hrank : ∀ id child, child ∈ t.children id → rank child < rank id) {steps : Nat}
    {stack : List Nat} (h : t.cost rank stack ≤ steps) (seen : List Nat) :
    (outcome t.stepVisit (seen, stack)).map Prod.fst = some (seen ++ t.walk steps stack) := by
  induction steps generalizing stack seen with
  | zero =>
      cases stack with
      | nil =>
          rw [outcome_of_none rfl, walk, List.append_nil]
          rfl
      | cons id stack =>
          have hpos : 0 < (t.width + 1) ^ (rank id + 1) := Nat.pow_pos (Nat.succ_pos _)
          rw [cost, List.map_cons, List.sum_cons] at h
          omega
  | succ steps ih =>
      cases stack with
      | nil =>
          rw [outcome_of_none rfl, walk, List.append_nil]
          rfl
      | cons id stack =>
          have hpos : 0 < (t.width + 1) ^ (rank id + 1) := Nat.pow_pos (Nat.succ_pos _)
          rw [cost, List.map_cons, List.sum_cons] at h
          rw [walk]
          cases hn : t.node? id with
          | none =>
              have hnext : t.stepVisit (seen, id :: stack) = some (seen, stack) := by
                rw [stepVisit, hn]
              rw [outcome_of_some hnext]
              exact ih (by rw [cost]; omega) seen
          | some n =>
              have hnext : t.stepVisit (seen, id :: stack) =
                  some (seen ++ [id], n.children ++ stack) := by
                rw [stepVisit, hn]
              have hlt := childrenCost_lt hrank hn
              rw [cost] at hlt
              rw [outcome_of_some hnext,
                ih (by rw [cost, List.map_append, List.sum_append]; omega), List.append_assoc,
                List.singleton_append]

/-! ## All walks -/

/-- **Without a cycle every walk ends**, and where the bounded one does. -/
theorem Acyclic.walks_end (h : t.Acyclic) :
    (∀ side pos, t.seek side pos t.root = some (t.resolve pos side)) ∧
    (∀ id, t.climb id = some (t.ancestors id)) ∧ t.visit [t.root] = some t.preorder := by
  obtain ⟨up, hup, hupSize⟩ := exists_parentRank h.parents
  obtain ⟨down, hdown, hdownSize⟩ := exists_childRank h.children
  refine ⟨fun side pos => seek_eq hdown (hdownSize _), fun id => climb_eq hup (hupSize id) [], ?_⟩
  refine visit_eq hdown ?_ []
  simpa [cost, visitBound] using
    Nat.pow_le_pow_right (Nat.succ_pos t.width) (Nat.succ_le_succ (hdownSize t.root))

/-- **Every way up ends just when no node is above itself.** -/
theorem climb_ends_iff :
    (∀ id, ∃ above, t.climb id = some above) ↔
      ∀ id, ¬TransGen (fun a b => t.parent? a = some b) id id := by
  constructor
  · intro hends id hcycle
    have hnone : outcome t.stepUp ([id], id) = none := by
      refine outcome_eq_none (fun s => TransGen (fun a b => t.parent? a = some b) s.2 s.2) ?_ hcycle
      -- one link further, the way leads back over the link just passed
      rintro ⟨found, id⟩ hcycle
      obtain ⟨p, hp, hback⟩ := TransGen.head'_iff.mp hcycle
      refine ⟨(found ++ [p], p), ?_, TransGen.tail' hback hp⟩
      rw [stepUp, hp]
      rfl
    obtain ⟨above, habove⟩ := hends id
    rw [climb, hnone] at habove
    exact absurd habove (by simp)
  · intro hparents id
    obtain ⟨up, hup, hupSize⟩ := exists_parentRank hparents
    exact ⟨_, climb_eq hup (hupSize id) []⟩

/-! ## Tables without a cycle -/

/-- Where all links to parents run one way in some order, and all links to children one way in some
order, there is no cycle. -/
theorem acyclic_of_order {up down : Nat → Nat → Prop} [IsStrictOrder Nat up]
    [IsStrictOrder Nat down] (hup : ∀ id p, t.parent? id = some p → up id p)
    (hdown : ∀ id child, child ∈ t.children id → down id child) : t.Acyclic := by
  have hparents : TransGen (fun a b => t.parent? a = some b) ≤ up := transGen_minimal hup
  have hchildren : TransGen (fun a b => b ∈ t.children a) ≤ down := transGen_minimal hdown
  exact ⟨fun id hcycle => irrefl_of up id (hparents id id hcycle),
    fun id hcycle => irrefl_of down id (hchildren id id hcycle)⟩

/-- In a tree that was built, a parent comes before its children, so there is no cycle. -/
theorem Built.acyclic (h : t.Built) : t.Acyclic := by
  obtain ⟨root, length, events, h⟩ := h
  have hw := wellFormed_of_ofEvents h
  have hparent : ∀ id p, t.parent? id = some p → id > p := by
    intro id p hp
    obtain ⟨n, hn, -⟩ := parent?_eq_some_iff.mp hp
    rcases Nat.eq_zero_or_pos id with rfl | hpos
    · exact absurd (hw.root.2.2.symm.trans hp) (by simp)
    · obtain ⟨p', hp', hlt⟩ := hw.parent_lt id hpos (size_of_getElem? hn)
      rwa [Option.some.inj (hp.symm.trans hp')]
  have hchild : ∀ id child, child ∈ t.children id → id < child := by
    intro id child hc
    have hcount := hw.count_children child id
    split at hcount
    · rename_i hp
      exact hparent child id hp
    · exact absurd hc (List.count_eq_zero.mp hcount)
  exact acyclic_of_order hparent hchild

end LogQL.Tree
