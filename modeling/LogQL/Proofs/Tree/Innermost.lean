import LogQL.Proofs.Tree.Resolve
import Mathlib.Data.List.Pairwise

/-!
# The innermost node around a position

`resolve` goes down greedily, to the first child that is entered, and never looks at the others. In
a tree that was built the bound on its steps is not reached, since a child comes after its parent,
so it stops only where no child is entered. A node lies inside its parent, so what is entered below
some node is entered there too; the nodes on the way down are therefore all entered.

That nothing else is entered needs more: the children of a node have to lie one after the other
(`Apart`). From one side, at most one of them is then entered, and a greedy descent passes by no
entered node. Seen from both sides at once, two children that touch are both entered, and a descent
chooses the first.
-/

namespace LogQL.Tree

variable {t : Tree} {length : Nat} {side : Side} {pos : Nat}

/-- The node `a` ends where `b` begins, or before. -/
def Precedes (t : Tree) (a b : Nat) : Prop := ∀ s ∈ t.span? a, ∀ u ∈ t.span? b, s.stop ≤ u.start

instance (t : Tree) (a b : Nat) : Decidable (t.Precedes a b) :=
  inferInstanceAs (Decidable (∀ s ∈ t.span? a, ∀ u ∈ t.span? b, s.stop ≤ u.start))

/-- The children of each node lie one after the other. -/
def Apart (t : Tree) : Prop := ∀ p, (t.children p).IsChain t.Precedes

theorem apart_iff : t.Apart ↔ ∀ n ∈ t.nodes.toList, n.children.IsChain t.Precedes := by
  unfold Apart children node?
  constructor
  · intro h n hn
    obtain ⟨id, hid⟩ := Array.getElem?_of_mem (Array.mem_toList_iff.mp hn)
    have hchain := h id
    rwa [hid] at hchain
  · intro h p
    cases hp : t.nodes[p]? with
    | none => exact List.IsChain.nil
    | some n => exact h n (Array.mem_toList_iff.mpr (Array.mem_of_getElem? hp))

instance (t : Tree) : Decidable t.Apart := decidable_of_iff _ apart_iff.symm

/-- The node that is entered and lies below every other one that is; the root if there is none. -/
structure Innermost (t : Tree) (side : Side) (pos id : Nat) : Prop where
  covers : id = t.root ∨ t.Entered side pos id
  least : ∀ a, t.Entered side pos a → Above t id a

/-! ## Links of a well-formed tree -/

theorem WellFormed.mem_children_iff (h : WellFormed length t) {id p : Nat} :
    id ∈ t.children p ↔ t.parent? id = some p := by
  rw [← List.count_pos_iff, h.count_children]
  split <;> simp [*]

theorem size_of_span? {id : Nat} {s : Span} (h : t.span? id = some s) : id < t.nodes.size := by
  obtain ⟨n, hn, -⟩ := span?_eq_some_iff.mp h
  exact size_of_getElem? hn

theorem exists_span? {id : Nat} (h : id < t.nodes.size) : ∃ s, t.span? id = some s :=
  ⟨_, span?_eq_some_iff.mpr ⟨_, Array.getElem?_eq_getElem h, rfl⟩⟩

theorem size_of_parent? {id p : Nat} (h : t.parent? id = some p) : id < t.nodes.size := by
  obtain ⟨n, hn, -⟩ := parent?_eq_some_iff.mp h
  exact size_of_getElem? hn

theorem WellFormed.lt_of_parent? (h : WellFormed length t) {id p : Nat}
    (hp : t.parent? id = some p) : p < id := by
  rcases Nat.eq_zero_or_pos id with rfl | hpos
  · rw [h.root.2.2] at hp
    exact absurd hp (by simp)
  · obtain ⟨q, hq, hlt⟩ := h.parent_lt id hpos (size_of_parent? hp)
    rw [Option.some.inj (hp.symm.trans hq)]
    exact hlt

/-- What is above a node comes before it. -/
theorem WellFormed.le_of_above (h : WellFormed length t) {id a : Nat} (ha : Above t id a) :
    a ≤ id := by
  induction ha with
  | refl => exact Nat.le_refl _
  | tail _ hp ih => exact Nat.le_trans (Nat.le_of_lt (h.lt_of_parent? hp)) ih

theorem WellFormed.eq_root_of_above (h : WellFormed length t) {a : Nat}
    (ha : Above t t.root a) : a = t.root := by
  have hle := h.le_of_above ha
  have hroot := h.root.1
  omega

/-- Below a node there is the node itself and what is below one of its children. -/
theorem WellFormed.below_cases (h : WellFormed length t) {id a : Nat} (ha : Above t id a) :
    id = a ∨ ∃ child ∈ t.children a, Above t id child := by
  cases ha with
  | refl => exact Or.inl rfl
  | tail hchild hp => exact Or.inr ⟨_, h.mem_children_iff.mpr hp, hchild⟩

/-- Every node has the root above it. -/
theorem WellFormed.above_root (h : WellFormed length t) {id : Nat} (hid : id < t.nodes.size) :
    Above t id t.root := by
  rw [h.root.1]
  exact above_first h.parent_lt hid

/-! ## Going up -/

theorem above_of_mem_ascend {steps id a : Nat} (ha : a ∈ t.ascend steps id) : Above t id a := by
  induction steps generalizing id with
  | zero =>
      rw [List.mem_singleton.mp ha]
      exact Relation.ReflTransGen.refl
  | succ steps ih =>
      unfold ascend at ha
      cases hp : t.parent? id with
      | none =>
          rw [hp] at ha
          rw [List.mem_singleton.mp ha]
          exact Relation.ReflTransGen.refl
      | some p =>
          rw [hp] at ha
          rcases List.mem_cons.mp ha with rfl | ha
          · exact Relation.ReflTransGen.refl
          · exact Relation.ReflTransGen.head hp (ih ha)

theorem WellFormed.mem_ascend (h : WellFormed length t) {steps id a : Nat} (hsteps : id ≤ steps)
    (ha : Above t id a) : a ∈ t.ascend steps id := by
  induction steps generalizing id with
  | zero =>
      have hle := h.le_of_above ha
      obtain rfl : a = id := by omega
      exact List.mem_singleton_self _
  | succ steps ih =>
      unfold ascend
      rcases Relation.ReflTransGen.cases_head ha with rfl | ⟨p, hp, ha⟩
      · cases t.parent? id <;> exact List.mem_cons_self
      · have hlt := h.lt_of_parent? hp
        rw [hp]
        exact List.mem_cons_of_mem _ (ih (by omega) ha)

/-- **In a well-formed tree the ancestors of a node are the nodes above it.** -/
theorem WellFormed.mem_ancestors_iff (h : WellFormed length t) {id a : Nat}
    (hid : id < t.nodes.size) : a ∈ t.ancestors id ↔ Above t id a :=
  ⟨above_of_mem_ascend, h.mem_ascend (Nat.le_of_lt hid)⟩

/-! ## Going down -/

/-- A larger span is entered where a smaller one is. -/
theorem Side.enters_mono {s outer : Span} (hstart : outer.start ≤ s.start)
    (hstop : s.stop ≤ outer.stop) (h : side.enters s pos = true) :
    side.enters outer pos = true := by
  cases side <;> simp only [Side.enters, Bool.and_eq_true, decide_eq_true_eq] at h ⊢ <;> omega

/-- What is above an entered node is entered. -/
theorem WellFormed.entered_above (h : WellFormed length t) {id a : Nat} (ha : Above t id a)
    (hid : t.Entered side pos id) : t.Entered side pos a := by
  obtain ⟨s, hs, henters⟩ := hid
  have hsize := Nat.lt_of_le_of_lt (h.le_of_above ha) (size_of_span? hs)
  obtain ⟨outer, houter⟩ := exists_span? hsize
  obtain ⟨hstart, hstop⟩ := h.inside id a s outer ha hs houter
  exact ⟨outer, houter, Side.enters_mono hstart hstop henters⟩

theorem enteredChild?_eq_none_iff {id : Nat} :
    t.enteredChild? side pos id = none ↔
      ∀ child ∈ t.children id, ¬ t.Entered side pos child := by
  unfold enteredChild? Entered
  rw [List.find?_eq_none]
  refine forall₂_congr fun child _ => not_congr ?_
  cases t.span? child <;> simp

/-- A descent ends below where it began. -/
theorem WellFormed.descend_above (h : WellFormed length t) (steps id : Nat) :
    Above t (t.descend side pos steps id) id := by
  induction steps generalizing id with
  | zero => exact Relation.ReflTransGen.refl
  | succ steps ih =>
      unfold descend
      cases hc : t.enteredChild? side pos id with
      | none => exact Relation.ReflTransGen.refl
      | some child =>
          have hp := h.mem_children_iff.mp (entered_of_enteredChild? hc).1
          exact (ih child).tail hp

/-- The last node of the table has no children. -/
theorem WellFormed.children_of_size_le (h : WellFormed length t) {id child : Nat}
    (hid : t.nodes.size ≤ id + 1) : child ∉ t.children id := by
  intro hchild
  have hp := h.mem_children_iff.mp hchild
  have hlt := h.lt_of_parent? hp
  have hsize := size_of_parent? hp
  omega

/-- With as many steps as there are nodes to come, a descent ends where no child is entered. -/
theorem WellFormed.enteredChild?_descend (h : WellFormed length t) {steps id : Nat}
    (hsteps : t.nodes.size ≤ id + 1 + steps) :
    t.enteredChild? side pos (t.descend side pos steps id) = none := by
  induction steps generalizing id with
  | zero =>
      exact enteredChild?_eq_none_iff.mpr fun _ hc => absurd hc (h.children_of_size_le hsteps)
  | succ steps ih =>
      unfold descend
      cases hc : t.enteredChild? side pos id with
      | none => exact hc
      | some child =>
          have hlt := h.lt_of_parent? (h.mem_children_iff.mp (entered_of_enteredChild? hc).1)
          exact ih (by omega)

/-! ## Children that lie apart -/

/-- Where each child precedes the next one, it precedes all that follow. -/
theorem pairwise_of_isChain {children : List Nat}
    (hspan : ∀ id ∈ children, ∃ s, t.span? id = some s ∧ s.start ≤ s.stop)
    (h : children.IsChain t.Precedes) : children.Pairwise t.Precedes := by
  induction children with
  | nil => exact List.Pairwise.nil
  | cons a rest ih =>
      cases rest with
      | nil => exact List.pairwise_singleton ..
      | cons b rest =>
          obtain ⟨hab, hchain⟩ := List.isChain_cons_cons.mp h
          have hrest := ih (fun id hid => hspan id (List.mem_cons_of_mem _ hid)) hchain
          refine List.pairwise_cons.mpr ⟨fun c hc => ?_, hrest⟩
          rcases List.mem_cons.mp hc with rfl | hc
          · exact hab
          · -- `b` lies between, and its span is not inverted
            obtain ⟨v, hv, hordered⟩ := hspan b (by simp)
            have hbc := (List.pairwise_cons.mp hrest).1 c hc
            intro s hs u hu
            exact Nat.le_trans (hab s hs v hv) (Nat.le_trans hordered (hbc v hv u hu))

/-- Seen from one side, of two nodes of which one precedes the other at most one is entered. -/
theorem Precedes.not_entered {a b : Nat} (h : t.Precedes a b) (hside : side ≠ .around) :
    ¬ (t.Entered side pos a ∧ t.Entered side pos b) := by
  rintro ⟨⟨s, hs, hsa⟩, u, hu, hub⟩
  have hle := h s hs u hu
  cases side with
  | before =>
      simp only [Side.enters, Bool.and_eq_true, decide_eq_true_eq] at hsa hub
      omega
  | around => exact hside rfl
  | after =>
      simp only [Side.enters, Bool.and_eq_true, decide_eq_true_eq] at hsa hub
      omega

/-- From one side, at most one child of a node is entered. -/
theorem Apart.entered_unique (h : t.Apart) (hw : WellFormed length t) (hside : side ≠ .around)
    {p a b : Nat} (ha : a ∈ t.children p) (hb : b ∈ t.children p) (hea : t.Entered side pos a)
    (heb : t.Entered side pos b) : a = b := by
  have hspan : ∀ id ∈ t.children p, ∃ s, t.span? id = some s ∧ s.start ≤ s.stop := by
    intro id hid
    obtain ⟨s, hs⟩ := exists_span? (size_of_parent? (hw.mem_children_iff.mp hid))
    exact ⟨s, hs, hw.ordered id s hs⟩
  -- `Pairwise` speaks of the earlier child first; what it excludes is symmetric
  have hexcl : (t.children p).Pairwise fun a b =>
      ¬ (t.Entered side pos a ∧ t.Entered side pos b) :=
    (pairwise_of_isChain hspan (h p)).imp fun hab => hab.not_entered hside
  have hsymm : Std.Symm fun a b => ¬ (t.Entered side pos a ∧ t.Entered side pos b) :=
    ⟨fun _ _ hab hba => hab hba.symm⟩
  by_contra hne
  exact hexcl.forall ha hb hne ⟨hea, heb⟩

/-- A descent that starts above an entered node ends below it. -/
theorem Apart.descend_below (h : t.Apart) (hw : WellFormed length t) (hside : side ≠ .around)
    {x : Nat} (hx : t.Entered side pos x) {steps id : Nat}
    (hsteps : t.nodes.size ≤ id + 1 + steps) (hid : Above t x id) :
    Above t (t.descend side pos steps id) x := by
  induction steps generalizing id with
  | zero =>
      rcases hw.below_cases hid with rfl | ⟨child, hchild, -⟩
      · exact Relation.ReflTransGen.refl
      · exact absurd hchild (hw.children_of_size_le hsteps)
  | succ steps ih =>
      rcases hw.below_cases hid with rfl | ⟨child, hchild, hbelow⟩
      · exact hw.descend_above _ _
      · -- the child on the way to `x` is entered, so it is the one that is chosen
        have hentered := hw.entered_above hbelow hx
        unfold descend
        cases hc : t.enteredChild? side pos id with
        | none => exact absurd hentered (enteredChild?_eq_none_iff.mp hc child hchild)
        | some first =>
            obtain ⟨hfirst, hefirst⟩ := entered_of_enteredChild? hc
            obtain rfl := h.entered_unique hw hside hfirst hchild hefirst hentered
            have hlt := hw.lt_of_parent? (hw.mem_children_iff.mp hfirst)
            exact ih (by omega) hbelow

/-! ## The node looked up -/

theorem WellFormed.resolve_lt (h : WellFormed length t) (pos : Nat) (side : Side) :
    t.resolve pos side < t.nodes.size := by
  rcases resolve_entered t pos side with he | ⟨s, hs, -⟩
  · rw [he, h.root.1]
    exact size_of_span? h.root.2.1
  · exact size_of_span? hs

theorem WellFormed.entered_of_mem_ancestors (h : WellFormed length t) {id : Nat}
    (hid : id ∈ t.ancestors (t.resolve pos side)) (hne : id ≠ t.root) : t.Entered side pos id := by
  have ha := (h.mem_ancestors_iff (h.resolve_lt pos side)).mp hid
  rcases resolve_entered t pos side with he | he
  · rw [he] at ha
    exact absurd (h.eq_root_of_above ha) hne
  · exact h.entered_above ha he

theorem WellFormed.not_entered_child (h : WellFormed length t) (pos : Nat) (side : Side) :
    ∀ child ∈ t.children (t.resolve pos side), ¬ t.Entered side pos child :=
  enteredChild?_eq_none_iff.mp (h.enteredChild?_descend (by omega))

theorem Apart.innermost_resolve (h : t.Apart) (hw : WellFormed length t) (hside : side ≠ .around) :
    Innermost t side pos (t.resolve pos side) where
  covers := resolve_entered t pos side
  least := by
    rintro a ha
    obtain ⟨s, hs, -⟩ := id ha
    exact h.descend_below hw hside ha (by omega) (hw.above_root (size_of_span? hs))

/-- There is one innermost node at most. -/
theorem Innermost.unique (hw : WellFormed length t) {a b : Nat} (ha : Innermost t side pos a)
    (hb : Innermost t side pos b) : a = b := by
  -- each is above the other, the root being above everything entered
  have hle : ∀ {a b}, Innermost t side pos a → Innermost t side pos b → a ≤ b := by
    intro a b ha hb
    rcases ha.covers with rfl | hea
    · rw [hw.root.1]
      exact Nat.zero_le _
    · exact hw.le_of_above (hb.least a hea)
  exact Nat.le_antisymm (hle ha hb) (hle hb ha)

/--
**What a look-up finds.** Every node on the way to the node looked up is entered, the root excepted,
and none of its children is. Where children lie apart, a look-up from one side misses nothing: the
entered nodes below the root are those on the way, so the node looked up is the one innermost node,
and it is the root when no other node is entered.
-/
theorem resolve_innermost (hbuilt : t.Built) (pos : Nat) :
    (∀ side,
      (∀ id ∈ t.ancestors (t.resolve pos side), id ≠ t.root → t.Entered side pos id) ∧
      ∀ child ∈ t.children (t.resolve pos side), ¬ t.Entered side pos child) ∧
    (t.Apart → ∀ side, side ≠ .around →
      (∀ id, id ≠ t.root →
        (t.Entered side pos id ↔ id ∈ t.ancestors (t.resolve pos side))) ∧
      (∀ id, Innermost t side pos id ↔ id = t.resolve pos side) ∧
      ((∀ id, id ≠ t.root → ¬ t.Entered side pos id) ↔ t.resolve pos side = t.root)) := by
  obtain ⟨root, length, events, hevents⟩ := hbuilt
  have hw := wellFormed_of_ofEvents hevents
  refine ⟨fun side => ⟨fun id => hw.entered_of_mem_ancestors, hw.not_entered_child pos side⟩,
    fun hapart side hside => ?_⟩
  have hinner : Innermost t side pos (t.resolve pos side) := hapart.innermost_resolve hw hside
  have hiff : ∀ id, id ≠ t.root →
      (t.Entered side pos id ↔ id ∈ t.ancestors (t.resolve pos side)) := by
    intro id hne
    rw [hw.mem_ancestors_iff (hw.resolve_lt pos side)]
    refine ⟨hinner.least id, fun ha => ?_⟩
    exact hw.entered_of_mem_ancestors
      ((hw.mem_ancestors_iff (hw.resolve_lt pos side)).mpr ha) hne
  refine ⟨hiff, fun id => ⟨fun h => h.unique hw hinner, fun h => h ▸ hinner⟩, ?_, ?_⟩
  · intro hnone
    by_contra hne
    exact hnone _ hne (hinner.covers.resolve_left hne)
  · -- an entered node would be above the root
    intro hroot id hne he
    have ha := hinner.least id he
    rw [hroot] at ha
    exact hne (hw.eq_root_of_above ha)

/-- The events of a selector in which something is missing before the string of a matcher. -/
def gapEvents : List Event :=
  [.opened .selector 0, .opened .labelMatcher 1, .leaf .labelName ⟨1, 4⟩, .leaf .operator ⟨4, 5⟩,
    .unreadable ⟨5, 5⟩, .leaf .string ⟨5, 8⟩, .closed 8, .closed 9]

/-- The tree that they make. -/
def gapTree : Tree := ⟨(Draft.run (.other "LogQL") 9 gapEvents).nodes, 0⟩

/-- Where the operator ends and the string begins, either of them is the innermost node from its
side, and the empty node between them from neither. -/
theorem resolve_innermost_gap :
    gapTree.Built ∧ gapTree.Apart ∧
      Innermost gapTree .before 5 4 ∧ Innermost gapTree .after 5 6 ∧
      ¬ gapTree.Entered .before 5 5 ∧ ¬ gapTree.Entered .after 5 5 := by
  have hbuilt : gapTree.Built := ⟨.other "LogQL", 9, gapEvents, rfl⟩
  have hapart : gapTree.Apart := by decide
  obtain ⟨hbefore, hib, -⟩ := (resolve_innermost hbuilt 5).2 hapart .before (by decide)
  obtain ⟨hafter, hia, -⟩ := (resolve_innermost hbuilt 5).2 hapart .after (by decide)
  refine ⟨hbuilt, hapart, (hib 4).mpr (by decide), (hia 6).mpr (by decide), ?_, ?_⟩
  · rw [hbefore 5 (by decide)]
    decide
  · rw [hafter 5 (by decide)]
    decide

end LogQL.Tree
