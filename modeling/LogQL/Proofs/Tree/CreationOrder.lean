import LogQL.Proofs.Tree.Innermost
import LogQL.Proofs.Tree.Walks
import Mathlib.Data.List.Sort

/-!
# Ids in document order

A draft gives ids in the order in which nodes are added, and a new node goes below the innermost
open one. All open nodes are above the node added last: opening puts a node there, and closing only
moves on to what is above. So each node is added below its predecessor or below something above
that (`Trailing`), whatever was closed in between; in other words at the end of the rightmost path.

From this alone it follows that what is below a node has consecutive ids (`Trailing.above_of_between`),
and that the children of a node, which are listed by id, have all that is below one of them before
the next (`WellFormed.preorder_sorted`). A visit in document order therefore meets the ids as they
were given.
-/

namespace LogQL.Tree

open Relation

/-- Each node but the first is below its predecessor or below a node above that. -/
def Trailing (t : Tree) : Prop :=
  ∀ id, id + 1 < t.nodes.size → ∃ p, t.parent? (id + 1) = some p ∧ Above t id p

/-! ## Where a draft adds its nodes -/

namespace Draft

/-- The nodes of a draft as they are now. -/
def table (d : Draft) : Tree := ⟨d.nodes, 0⟩

/-- Each open node is below the next one, the outermost below the root, and all of them are above
the node added last. -/
structure Trails (d : Draft) : Prop where
  pending : (d.pending ++ [0]).IsChain fun id p => d.table.parent? id = some p
  last : Above d.table (d.nodes.size - 1) (d.pending.headD 0)
  trailing : d.table.Trailing

variable {d : Draft} {e : Event}

theorem parent?_apply (e : Event) {id p : Nat} (h : d.table.parent? id = some p) :
    (d.apply e).table.parent? id = some p := by
  obtain ⟨n, hn, hp⟩ := parent?_eq_some_iff.mp h
  obtain ⟨m, hm, -, hparent, -⟩ := d.apply_old e hn
  exact parent?_eq_some_iff.mpr ⟨m, hm, hparent.trans hp⟩

theorem above_apply (e : Event) {id a : Nat} (h : Above d.table id a) :
    Above (d.apply e).table id a :=
  ReflTransGen.mono (fun _ _ => parent?_apply e) _ _ h

theorem trails_start (root : Kind) (length : Nat) : Trails (start root length) where
  pending := List.isChain_singleton _
  last := .refl
  trailing := fun id hid => absurd hid (by simp [table, start])

/-- What an event that adds a node does to the links. -/
theorem parent?_adds (h : e.adds = true) :
    (d.apply e).table.parent? d.nodes.size = some (d.pending.headD 0) := by
  obtain ⟨-, n, hn, hparent, -⟩ := d.apply_adds h
  exact parent?_eq_some_iff.mpr ⟨n, hn, hparent⟩

theorem size_of_not_adds (h : ¬e.adds = true) : (d.apply e).nodes.size = d.nodes.size := by
  rw [size_apply, if_neg h, Nat.add_zero]

/-- A new node is below the innermost open node, and so below one above its predecessor. -/
theorem Trails.trailing_apply (h : Trails d) (e : Event) : (d.apply e).table.Trailing := by
  intro id hid
  by_cases hold : id + 1 < d.nodes.size
  · obtain ⟨p, hp, habove⟩ := h.trailing id hold
    exact ⟨p, parent?_apply e hp, above_apply e habove⟩
  · by_cases hadds : e.adds = true
    · have hsize : id + 1 < d.nodes.size + 1 := (d.apply_adds hadds).1 ▸ hid
      have hlast : d.nodes.size = id + 1 := by omega
      refine ⟨d.pending.headD 0, hlast ▸ parent?_adds hadds, ?_⟩
      have habove := above_apply e h.last
      rwa [hlast, Nat.add_sub_cancel] at habove
    · exact absurd ((size_of_not_adds hadds) ▸ hid) hold

/-- An event that neither opens nor closes a node: if it adds one, that is below the innermost open
node. -/
theorem Trails.same (h : Trails d) (hpending : (d.apply e).pending = d.pending) :
    Trails (d.apply e) where
  pending := by
    rw [hpending]
    exact h.pending.imp fun _ _ => parent?_apply e
  last := by
    rw [hpending]
    by_cases hadds : e.adds = true
    · rw [(d.apply_adds hadds).1, Nat.add_sub_cancel]
      exact .single (parent?_adds hadds)
    · rw [size_of_not_adds hadds]
      exact above_apply e h.last
  trailing := h.trailing_apply e

theorem head?_concat_zero (ids : List Nat) : (ids ++ [0]).head? = some (ids.headD 0) := by
  cases ids <;> rfl

/-- **Every event keeps the open nodes above the node added last.** -/
theorem Trails.apply (h : Trails d) (e : Event) : Trails (d.apply e) := by
  cases e with
  | opened kind start =>
      refine ⟨?_, ?_, h.trailing_apply _⟩
      · -- the new node is the innermost open one, below the one that was innermost before
        rw [pending_apply]
        dsimp only
        rw [List.cons_append]
        refine List.IsChain.cons (h.pending.imp fun _ _ => parent?_apply _) fun p hp => ?_
        rw [head?_concat_zero, Option.mem_some_iff] at hp
        rw [← hp]
        exact parent?_adds rfl
      · rw [pending_apply, (d.apply_adds rfl).1, Nat.add_sub_cancel]
        exact .refl
  | closed stop =>
      have hpending := h.pending.imp fun _ _ => parent?_apply (.closed stop)
      have hlast := above_apply (.closed stop) h.last
      refine ⟨?_, ?_, h.trailing_apply _⟩
      · rw [pending_apply]
        cases hp : d.pending with
        | nil => exact List.isChain_singleton _
        | cons id rest =>
            rw [hp] at hpending
            exact (List.isChain_cons.mp hpending).2
      · rw [pending_apply, size_of_not_adds (by simp [Event.adds])]
        cases hp : d.pending with
        | nil =>
            rw [hp] at hlast
            exact hlast
        | cons id rest =>
            -- what is innermost now is the parent of what was
            rw [hp] at hpending hlast
            exact hlast.tail ((List.isChain_cons.mp hpending).1 _ (head?_concat_zero rest))
  | leaf kind span => exact h.same (pending_leaf rfl)
  | unreadable span => exact h.same (pending_leaf rfl)
  | markError => exact h.same rfl

theorem trails_run (root : Kind) (length : Nat) (events : List Event) :
    Trails (run root length events) := by
  induction events using List.reverseRecOn with
  | nil => exact trails_start root length
  | append_singleton events e ih =>
      rw [run_snoc]
      exact ih.apply e

end Draft

theorem Built.trailing {t : Tree} (h : t.Built) : t.Trailing := by
  obtain ⟨root, length, events, h⟩ := h
  obtain ⟨-, -, -, rfl⟩ := ofEvents_eq_ok_iff.mp h
  exact (Draft.trails_run root length events).trailing

/-! ## What is below a node -/

variable {t : Tree} {length : Nat} {order : Nat → List Nat}

/-- **What is below a node has consecutive ids.** -/
theorem Trailing.above_of_between (h : t.Trailing) {a i j : Nat} (hj : j < t.nodes.size)
    (haj : Above t j a) (hai : a ≤ i) (hij : i ≤ j) : Above t i a := by
  induction j with
  | zero =>
      obtain rfl : i = 0 := by omega
      exact haj
  | succ j ih =>
      rcases Nat.lt_or_eq_of_le hij with hlt | rfl
      · -- one step up from `j + 1` there is a node above `j`
        obtain ⟨p, hp, hjp⟩ := h j hj
        rcases ReflTransGen.cases_head haj with he | ⟨q, hq, hqa⟩
        · omega
        · obtain rfl : p = q := Option.some.inj (hp.symm.trans hq)
          exact ih (by omega) (hjp.trans hqa) (by omega)
      · exact haj

/-- All that is below a node comes before the next child of its parent. -/
theorem Trailing.below_lt_sibling (h : t.Trailing) (hw : WellFormed length t) {p a b x : Nat}
    (ha : t.parent? a = some p) (hb : t.parent? b = some p) (hab : a < b) (hxa : Above t x a)
    (hx : x < t.nodes.size) : x < b := by
  by_contra hge
  have hba : Above t b a := h.above_of_between hx hxa (Nat.le_of_lt hab) (Nat.not_lt.mp hge)
  rcases ReflTransGen.cases_head hba with he | ⟨q, hq, hqa⟩
  · omega
  · obtain rfl : p = q := Option.some.inj (hb.symm.trans hq)
    have hle := hw.le_of_above hqa
    have hlt := hw.lt_of_parent? ha
    omega

/-! ## Document order -/

/-- What is below a node, by links to children and by links to parents. -/
theorem WellFormed.reaches_iff (hw : WellFormed length t) {id x : Nat} :
    ReflTransGen (fun a b => b ∈ t.graph.children a) id x ↔ Above t x id := by
  have hswap : (fun a b => b ∈ t.graph.children a) =
      Function.swap fun a b => t.parent? a = some b := by
    funext a b
    exact propext hw.mem_children_iff
  rw [hswap, reflTransGen_swap]
  rfl

/-- Along the links to children there are fewer and fewer ids to go. -/
theorem WellFormed.toGo_lt (hw : WellFormed length t) :
    ∀ id child, child ∈ t.graph.children id → t.nodes.size - child < t.nodes.size - id := by
  intro id child hc
  have hp := hw.mem_children_iff.mp hc
  have hlt := hw.lt_of_parent? hp
  have hsize := size_of_parent? hp
  omega

theorem WellFormed.mem_preorder_iff (hw : WellFormed length t) (horder : t.graph.IsPreorder order)
    {id x : Nat} : x ∈ order id ↔ x < t.nodes.size ∧ Above t x id := by
  rw [Graph.mem_preorder_iff hw.toGo_lt horder, hw.reaches_iff]
  refine and_congr_left fun _ => ⟨fun ⟨n, hn⟩ => lt_size_of_node? hn, fun hx => ?_⟩
  exact ⟨_, Array.getElem?_eq_getElem hx⟩

/-- **Document order runs upwards through the ids.** -/
theorem Trailing.preorder_sorted (h : t.Trailing) (hw : WellFormed length t)
    (horder : t.graph.IsPreorder order) (id : Nat) : (order id).Pairwise (· < ·) := by
  induction hr : t.nodes.size - id using Nat.strongRecOn generalizing id with
  | ind r ih =>
      rw [horder id]
      cases hn : t.graph.node? id with
      | none => exact List.Pairwise.nil
      | some n =>
          have hparent : ∀ c ∈ n.children, t.parent? c = some id := fun c hc =>
            hw.mem_children_iff.mp (Graph.mem_children_iff.mpr ⟨n, hn, hc⟩)
          have hsorted : n.children.Pairwise (· < ·) := by
            have hall := hw.sorted id
            rwa [children, show t.node? id = some n from hn] at hall
          refine List.pairwise_cons.mpr ⟨fun x hx => ?_, List.pairwise_flatMap.mpr ⟨?_, ?_⟩⟩
          · -- what is below a child comes no earlier than the child
            obtain ⟨c, hc, hx⟩ := List.mem_flatMap.mp hx
            have hle := hw.le_of_above ((hw.mem_preorder_iff horder).mp hx).2
            exact Nat.lt_of_lt_of_le (hw.lt_of_parent? (hparent c hc)) hle
          · intro c hc
            have hlt := hw.toGo_lt id c (Graph.mem_children_iff.mpr ⟨n, hn, hc⟩)
            exact ih (t.nodes.size - c) (hr ▸ hlt) c rfl
          · refine hsorted.imp_of_mem fun {a b} ha hb hab x hx y hy => ?_
            obtain ⟨hxsize, hxa⟩ := (hw.mem_preorder_iff horder).mp hx
            have hlt := h.below_lt_sibling hw (hparent a ha) (hparent b hb) hab hxa hxsize
            exact Nat.lt_of_lt_of_le hlt (hw.le_of_above ((hw.mem_preorder_iff horder).mp hy).2)

/-- Everything is below the root, so a visit meets all ids. -/
theorem Trailing.preorder_eq_range (h : t.Trailing) (hw : WellFormed length t)
    (horder : t.graph.IsPreorder order) : order t.root = List.range t.nodes.size := by
  refine (h.preorder_sorted hw horder t.root).sortedLT.eq_of_mem_iff (List.sortedLT_range _) ?_
  intro x
  rw [hw.mem_preorder_iff horder, List.mem_range]
  exact ⟨fun hx => hx.1, fun hx => ⟨hx, hw.above_root hx⟩⟩

/-! ## Ancestors and neighbours -/

/-- A way up goes to smaller and smaller ids and ends at the root. -/
theorem WellFormed.lineage_descends (hw : WellFormed length t) {id : Nat} {chain : List Nat}
    (h : t.graph.Lineage id chain) (hid : id < t.nodes.size) :
    chain.head? = some id ∧ chain.Pairwise (· > ·) ∧ (∀ a ∈ chain, a ≤ id) ∧
      chain.getLast? = some t.root := by
  induction h with
  | @top id htop =>
      refine ⟨rfl, List.pairwise_singleton .., by simp, ?_⟩
      rcases Nat.eq_zero_or_pos id with rfl | hpos
      · rw [hw.root.1]
        rfl
      · obtain ⟨p, hp, -⟩ := hw.parent_lt id hpos hid
        obtain ⟨n, hn, hparent⟩ := parent?_eq_some_iff.mp hp
        exact absurd (htop n hn) (by simp [hparent])
  | @step id p n above hn hparent _ ih =>
      have hlt := hw.lt_of_parent? (parent?_eq_some_iff.mpr ⟨n, hn, hparent⟩)
      obtain ⟨hhead, hpairwise, hle, hlast⟩ := ih (Nat.lt_trans hlt hid)
      refine ⟨rfl, List.pairwise_cons.mpr ⟨fun a ha => ?_, hpairwise⟩, fun a ha => ?_, ?_⟩
      · exact Nat.lt_of_le_of_lt (hle a ha) hlt
      · rcases List.mem_cons.mp ha with rfl | ha
        · exact Nat.le_refl a
        · exact Nat.le_trans (hle a ha) (Nat.le_of_lt hlt)
      · rw [List.getLast?_cons, hlast]
        rfl

/-- The last one of a list that runs upwards is its greatest. -/
theorem getLast?_eq_some_iff_isGreatest {ids : List Nat} (h : ids.Pairwise (· < ·)) {s : Nat} :
    ids.getLast? = some s ↔ IsGreatest {i | i ∈ ids} s := by
  rcases List.eq_nil_or_concat ids with rfl | ⟨ids, last, rfl⟩
  · simp [IsGreatest]
  · rw [List.concat_eq_append] at h ⊢
    have hgreatest : IsGreatest {i | i ∈ ids ++ [last]} last := by
      refine ⟨List.mem_append_right _ (List.mem_singleton_self _), fun i hi => ?_⟩
      rcases List.mem_append.mp hi with hi | hi
      · exact Nat.le_of_lt ((List.pairwise_append.mp h).2.2 i hi last (List.mem_singleton_self _))
      · exact Nat.le_of_eq (List.mem_singleton.mp hi)
    rw [List.getLast?_concat, Option.some_inj]
    exact ⟨fun he => he ▸ hgreatest, fun hs => hgreatest.unique hs⟩

theorem idxOf?_append_cons {id : Nat} {before : List Nat} (h : id ∉ before) (after : List Nat) :
    (before ++ id :: after).idxOf? id = some before.length := by
  induction before with
  | nil => simp [List.idxOf?_cons]
  | cons c before ih =>
      rw [List.mem_cons, not_or] at h
      simp [List.idxOf?_cons, ih h.2, Ne.symm h.1]

/-- The neighbour is the one listed before. -/
theorem prevSibling?_eq {id p : Nat} (hp : t.parent? id = some p) {before after : List Nat}
    (hsplit : t.children p = before ++ id :: after) (hid : id ∉ before) :
    t.prevSibling? id = before.getLast? := by
  obtain ⟨n, hn, -⟩ := Tree.mem_children_iff.mp (show id ∈ t.children p by simp [hsplit])
  have hchildren : n.children = before ++ id :: after := by
    rw [← hsplit, children, hn]
    rfl
  unfold prevSibling?
  rw [hp, Option.bind_eq_bind, Option.bind_some, hn, Option.bind_eq_bind, Option.bind_some,
    hchildren, idxOf?_append_cons hid, Option.bind_some, List.getLast?_eq_getElem?]
  split
  · rename_i hzero
    rw [List.eq_nil_of_length_eq_zero hzero]
    rfl
  · exact List.getElem?_append_left (by omega)

/-- The siblings of a node that were added earlier, in order, of which the last one is its
neighbour. -/
theorem WellFormed.exists_earlier (hw : WellFormed length t) {id : Nat} (hid : id < t.nodes.size)
    (hroot : id ≠ t.root) :
    ∃ earlier : List Nat, t.prevSibling? id = earlier.getLast? ∧ earlier.Pairwise (· < ·) ∧
      ∀ s, s ∈ earlier ↔ s < id ∧ t.parent? s = t.parent? id := by
  obtain ⟨p, hp, -⟩ := hw.parent_lt id (Nat.pos_of_ne_zero (hw.root.1 ▸ hroot)) hid
  obtain ⟨before, after, hsplit⟩ := List.append_of_mem (hw.mem_children_iff.mpr hp)
  have hsorted := hw.sorted p
  rw [hsplit] at hsorted
  obtain ⟨hbefore, hafter, hlt⟩ := List.pairwise_append.mp hsorted
  have hnot : id ∉ before := fun h => Nat.lt_irrefl _ (hlt id h id List.mem_cons_self)
  refine ⟨before, prevSibling?_eq hp hsplit hnot, hbefore, fun s => ?_⟩
  rw [hp, ← hw.mem_children_iff, hsplit, List.mem_append, List.mem_cons]
  constructor
  · intro hs
    exact ⟨hlt s hs id List.mem_cons_self, Or.inl hs⟩
  · rintro ⟨hs, hs' | rfl | hs'⟩
    · exact hs'
    · exact absurd hs (Nat.lt_irrefl _)
    · exact absurd hs (Nat.lt_asymm ((List.pairwise_cons.mp hafter).1 s hs'))

/--
**Ids are given in document order.** A tree that comes out of a sequence of events has one node for
the root and for each event that adds one, and a visit meets them in the order in which they were
added. The ancestors of a node have smaller and smaller ids, from its own to that of the root; what
is no node has no ancestors but itself. The neighbour before a node is its last sibling that was
added earlier, if there is one.
-/
theorem numbered_in_document_order {root : Kind} {length : Nat} {events : List Event} {t : Tree}
    (h : ofEvents root length events = .ok t) :
    t.nodes.size = idAfter events ∧ t.preorder = List.range t.nodes.size ∧
    (∀ id, id < t.nodes.size →
      (t.ancestors id).head? = some id ∧ (t.ancestors id).Pairwise (· > ·) ∧
        (t.ancestors id).getLast? = some t.root) ∧
    (∀ id, t.nodes.size ≤ id → t.ancestors id = [id]) ∧
    ∀ id, id < t.nodes.size → id ≠ t.root →
      (∀ s, t.prevSibling? id = some s ↔ IsGreatest {s | s < id ∧ t.parent? s = t.parent? id} s) ∧
        (t.prevSibling? id = none ↔ ∀ s, s < id → t.parent? s ≠ t.parent? id) := by
  have hw := wellFormed_of_ofEvents h
  have hbuilt : t.Built := ⟨root, length, events, h⟩
  have hacyclic : t.graph.Acyclic := ⟨hbuilt.acyclic.parents, hbuilt.acyclic.children⟩
  obtain ⟨hvisit, hclimb, -⟩ := Graph.table_walks hacyclic
  have hup : ∀ id p, t.graph.parent? id = some p → p < id := fun _ _ => hw.lt_of_parent?
  have hlineage : ∀ id, t.graph.Lineage id (t.ancestors id) := fun id =>
    (Graph.climb_eq_some_iff hup).mp (hclimb id)
  refine ⟨?_, ?_, fun id hid => ?_, fun id hid => ?_, fun id hid hroot => ⟨fun s => ?_, ?_⟩⟩
  · obtain ⟨-, -, -, rfl⟩ := ofEvents_eq_ok_iff.mp h
    exact Draft.size_run root length events
  · obtain ⟨order, horder, -⟩ := Graph.existsUnique_preorder hw.toGo_lt
    have hfound := (Graph.visit_eq hw.toGo_lt horder t.root).symm.trans hvisit
    rw [← Option.some.inj hfound]
    exact hbuilt.trailing.preorder_eq_range hw horder
  · obtain ⟨hhead, hpairwise, -, hlast⟩ := hw.lineage_descends (hlineage id) hid
    exact ⟨hhead, hpairwise, hlast⟩
  · have hlone := hlineage id
    generalize t.ancestors id = chain at hlone ⊢
    cases hlone with
    | top _ => rfl
    | step hn _ _ => exact absurd (lt_size_of_node? hn) (Nat.not_lt.mpr hid)
  · obtain ⟨earlier, hprev, hsorted, hmem⟩ := hw.exists_earlier hid hroot
    rw [hprev, getLast?_eq_some_iff_isGreatest hsorted]
    simp only [hmem]
  · obtain ⟨earlier, hprev, -, hmem⟩ := hw.exists_earlier hid hroot
    rw [hprev, List.getLast?_eq_none_iff, List.eq_nil_iff_forall_not_mem]
    simp only [hmem, not_and, ne_eq]

/-- The events of a selector and a pipeline after it. -/
def stageEvents : List Event :=
  [.opened .selector 0, .opened .labelMatcher 1, .leaf .labelName ⟨1, 4⟩, .leaf .operator ⟨4, 5⟩,
    .leaf .string ⟨5, 10⟩, .closed 10, .closed 11, .opened .pipeline 12,
    .leaf (.other "Json") ⟨14, 18⟩, .closed 18]

/-- The tree that they make. -/
def stageTree : Tree := ⟨(Draft.run (.other "LogQL") 18 stageEvents).nodes, 0⟩

/-- The pipeline is added when everything before it is closed, so its neighbour is the selector. -/
theorem numbered_in_document_order_stage :
    ofEvents (.other "LogQL") 18 stageEvents = .ok stageTree ∧
      stageTree.preorder = [0, 1, 2, 3, 4, 5, 6, 7] ∧ stageTree.prevSibling? 6 = some 1 ∧
      stageTree.prevSibling? 7 = none := by
  have hevents : ofEvents (.other "LogQL") 18 stageEvents = .ok stageTree := rfl
  obtain ⟨-, hpreorder, -, -, hprev⟩ := numbered_in_document_order hevents
  refine ⟨hevents, hpreorder, ((hprev 6 (by decide) (by decide)).1 1).mpr ⟨by decide, ?_⟩,
    (hprev 7 (by decide) (by decide)).2.mpr (by decide)⟩
  have hlast : ∀ s < 6, stageTree.parent? s = stageTree.parent? 6 → s ≤ 1 := by decide
  exact fun s hs => hlast s hs.1 hs.2

end LogQL.Tree
