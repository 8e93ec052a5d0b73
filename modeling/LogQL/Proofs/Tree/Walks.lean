import LogQL.Proofs.Tree.Acyclic
import Mathlib.Data.Set.Finite.Lattice

/-!
# What the walks find

A host shows its nodes by id, and nothing else is known of it: ids may have gaps, links may lead
nowhere, a node may be the child of several others, and a parent need not list those that name it.
If there are finitely many nodes and no cycle among the links to parents nor among those to
children, all walks come to an end, and what they find can be said without them.

* A visit works off a stack. What it finds is what the recursion over the children finds
  (`IsPreorder`), and that recursion has one solution. A node on the stack is worked off together
  with everything below it before the rest of the stack is looked at (`visit_cons`), so no bound on
  the number of visits is needed, and there is none that is linear in the number of nodes.
* A way up is the chain of parents up to the first node without one (`Lineage`).
* A look-up goes down, from each node to the first of its children that is entered
  (`FirstEntered`).

A table is such a host, and on a table the bounded walks that run are these walks.
-/

namespace LogQL.Tree

open Relation

/-- What a host shows of its nodes: which one is the root, and the node with a given id. -/
structure Graph where
  root : Nat
  node? : Nat → Option Node

/-- A table shows its nodes by their places. -/
def graph (t : Tree) : Graph := ⟨t.root, t.node?⟩

namespace Graph

/-! ## Links and walks -/

section

variable (g : Graph)

/-- The span of the node with this id. -/
def span? (id : Nat) : Option Span := (g.node? id).map Node.span

/-- The parent of the node with this id. -/
def parent? (id : Nat) : Option Nat := (g.node? id).bind Node.parent

/-- The children of the node with this id, none for an unknown node. -/
def children (id : Nat) : List Nat := ((g.node? id).map Node.children).getD []

/-- The first child of `id` whose span is entered at `pos`. -/
def enteredChild? (side : Side) (pos id : Nat) : Option Nat :=
  (g.children id).find? fun child => (g.span? child).any (side.enters · pos)

/-- Go down from the root to the first entered child until there is none. -/
noncomputable def seek (side : Side) (pos : Nat) : Option Nat :=
  outcome (g.enteredChild? side pos) g.root

/-- Go on to the parent and put it behind what has been found so far. -/
def stepUp : List Nat × Nat → Option (List Nat × Nat)
  | (found, id) => (g.parent? id).map fun parent => (found ++ [parent], parent)

/-- The id and all ids above it. -/
noncomputable def climb (id : Nat) : Option (List Nat) := (outcome g.stepUp ([id], id)).map Prod.fst

/-- Take a node off the stack, put it behind those seen so far and push its children, the last one
first. -/
def stepVisit : List Nat × List Nat → Option (List Nat × List Nat)
  | (_, []) => none
  | (seen, id :: stack) =>
    match g.node? id with
    | some n =>
      some (seen ++ [id], n.children.reverse.foldl (fun stack child => child :: stack) stack)
    | none => some (seen, stack)

/-- Visit the root and all that is below it. -/
noncomputable def visit : Option (List Nat) :=
  (outcome g.stepVisit ([], [g.root])).map Prod.fst

/-- No id is above itself, and none is below itself. -/
structure Acyclic : Prop where
  parents : ∀ id, ¬TransGen (fun a b => g.parent? a = some b) id id
  children : ∀ id, ¬TransGen (fun a b => b ∈ g.children a) id id

/-! ## What there is to find -/

/-- Document order by recursion: a node comes first, then what there is for each of its children in
turn. There is nothing for an unknown node. -/
def IsPreorder (order : Nat → List Nat) : Prop :=
  ∀ id, order id =
    match g.node? id with
    | some n => id :: n.children.flatMap order
    | none => []

/-- The ids from the first one up, parent after parent, to one that is unknown or has no parent. -/
inductive Lineage : Nat → List Nat → Prop where
  | top {id : Nat} : (∀ n, g.node? id = some n → n.parent = none) → Lineage id [id]
  | step {id p : Nat} {n : Node} {above : List Nat} :
      g.node? id = some n → n.parent = some p → Lineage p above → Lineage id (id :: above)

/-- A known node over a span that is entered at the position. -/
def Entered (side : Side) (pos id : Nat) : Prop :=
  ∃ n, g.node? id = some n ∧ side.enters n.span pos = true

/-- The node `child` is the first one that is entered among the children of `id`. -/
def FirstEntered (side : Side) (pos id child : Nat) : Prop :=
  ∃ n before after, g.node? id = some n ∧ n.children = before ++ child :: after ∧
    g.Entered side pos child ∧ ∀ c ∈ before, ¬g.Entered side pos c

end

variable {g : Graph} {rank : Nat → Nat} {order : Nat → List Nat} {side : Side} {pos : Nat}

theorem mem_children_iff {id child : Nat} :
    child ∈ g.children id ↔ ∃ n, g.node? id = some n ∧ child ∈ n.children := by
  unfold children
  cases g.node? id <;> simp

theorem parent?_eq_some_iff {id p : Nat} :
    g.parent? id = some p ↔ ∃ n, g.node? id = some n ∧ n.parent = some p := by
  unfold parent?
  exact Option.bind_eq_some_iff

/-- Finitely many nodes have ids below some bound. -/
theorem exists_bound (h : {id | (g.node? id).isSome}.Finite) :
    ∃ size, ∀ id n, g.node? id = some n → id < size := by
  obtain ⟨top, htop⟩ := h.bddAbove
  refine ⟨top + 1, fun id n hn => Nat.lt_succ_of_le (htop ?_)⟩
  show (g.node? id).isSome = true
  rw [hn]
  rfl

/-- Something gets smaller along the links to children. -/
theorem exists_childRank (hfinite : {id | (g.node? id).isSome}.Finite) (h : g.Acyclic) :
    ∃ rank : Nat → Nat, ∀ id child, child ∈ g.children id → rank child < rank id := by
  obtain ⟨size, hsize⟩ := exists_bound hfinite
  have hlt : ∀ a b, b ∈ g.children a → a < size := by
    intro a b hab
    obtain ⟨n, hn, -⟩ := mem_children_iff.mp hab
    exact hsize a n hn
  obtain ⟨rank, hrank, -⟩ := exists_rank hlt h.children
  exact ⟨rank, hrank⟩

/-- Something gets smaller along the links to parents. -/
theorem exists_parentRank (hfinite : {id | (g.node? id).isSome}.Finite) (h : g.Acyclic) :
    ∃ rank : Nat → Nat, ∀ id p, g.parent? id = some p → rank p < rank id := by
  obtain ⟨size, hsize⟩ := exists_bound hfinite
  have hlt : ∀ a b, g.parent? a = some b → a < size := by
    intro a b hab
    obtain ⟨n, hn, -⟩ := parent?_eq_some_iff.mp hab
    exact hsize a n hn
  obtain ⟨rank, hrank, -⟩ := exists_rank hlt h.parents
  exact ⟨rank, hrank⟩

/-! ## Visiting everything -/

theorem stepVisit_known {id : Nat} {n : Node} (hn : g.node? id = some n) (seen stack : List Nat) :
    g.stepVisit (seen, id :: stack) = some (seen ++ [id], n.children ++ stack) := by
  rw [stepVisit, hn]
  dsimp only
  rw [List.foldl_reverse, List.foldr_cons_eq_append']

theorem stepVisit_unknown {id : Nat} (hn : g.node? id = none) (seen stack : List Nat) :
    g.stepVisit (seen, id :: stack) = some (seen, stack) := by
  rw [stepVisit, hn]

/-- Where every id on top of a stack is worked off before the rest, so are several. -/
theorem visit_append {ids : List Nat}
    (h : ∀ id ∈ ids, ∀ seen stack, outcome g.stepVisit (seen, id :: stack) =
      outcome g.stepVisit (seen ++ order id, stack)) (seen stack : List Nat) :
    outcome g.stepVisit (seen, ids ++ stack) =
      outcome g.stepVisit (seen ++ ids.flatMap order, stack) := by
  induction ids generalizing seen with
  | nil => rw [List.nil_append, List.flatMap_nil, List.append_nil]
  | cons id ids ih =>
      rw [List.cons_append, h id List.mem_cons_self, ih fun c hc => h c (List.mem_cons_of_mem _ hc),
        List.flatMap_cons, List.append_assoc]

/-- **What is on top of the stack is worked off with all that is below it before the rest.** -/
theorem visit_cons (hrank : ∀ id child, child ∈ g.children id → rank child < rank id)
    (horder : g.IsPreorder order) (id : Nat) (seen stack : List Nat) :
    outcome g.stepVisit (seen, id :: stack) =
      outcome g.stepVisit (seen ++ order id, stack) := by
  induction hr : rank id using Nat.strongRecOn generalizing id seen stack with
  | ind r ih =>
      rw [horder id]
      cases hn : g.node? id with
      | none => rw [outcome_of_some (stepVisit_unknown hn seen stack), List.append_nil]
      | some n =>
          -- the children are on top now, and each of them is of a smaller rank
          have hchildren : ∀ c ∈ n.children, ∀ seen stack,
              outcome g.stepVisit (seen, c :: stack) =
                outcome g.stepVisit (seen ++ order c, stack) := by
            intro c hc seen stack
            have hlt := hrank id c (mem_children_iff.mpr ⟨n, hn, hc⟩)
            exact ih (rank c) (hr ▸ hlt) c seen stack rfl
          rw [outcome_of_some (stepVisit_known hn seen stack), visit_append hchildren,
            List.append_assoc, List.singleton_append]

/-- A visit ends, with what the recursion gives for its root. -/
theorem visit_eq (hrank : ∀ id child, child ∈ g.children id → rank child < rank id)
    (horder : g.IsPreorder order) (id : Nat) :
    (outcome g.stepVisit ([], [id])).map Prod.fst = some (order id) := by
  have hstop : g.stepVisit (order id, []) = none := rfl
  rw [visit_cons hrank horder, List.nil_append, outcome_of_none hstop]
  rfl

/-- The recursion, cut off at a depth. -/
def orderWithin (g : Graph) : (depth : Nat) → (id : Nat) → List Nat
  | 0, _ => []
  | depth + 1, id =>
    match g.node? id with
    | some n => id :: n.children.flatMap (orderWithin g depth)
    | none => []

/-- Below the rank the depth does not matter. -/
theorem orderWithin_eq (hrank : ∀ id child, child ∈ g.children id → rank child < rank id)
    {depth depth' id : Nat} (h : rank id < depth) (h' : rank id < depth') :
    g.orderWithin depth id = g.orderWithin depth' id := by
  induction depth generalizing depth' id with
  | zero => exact absurd h (Nat.not_lt_zero _)
  | succ depth ih =>
      cases depth' with
      | zero => exact absurd h' (Nat.not_lt_zero _)
      | succ depth' =>
          rw [orderWithin, orderWithin]
          cases hn : g.node? id with
          | none => rfl
          | some n =>
              refine congrArg (id :: ·) (List.flatMap_congr fun c hc => ?_)
              have hlt := hrank id c (mem_children_iff.mpr ⟨n, hn, hc⟩)
              exact ih (by omega) (by omega)

/-- **The recursion has one solution.** -/
theorem existsUnique_preorder (hrank : ∀ id child, child ∈ g.children id → rank child < rank id) :
    ∃! order, g.IsPreorder order := by
  have hexists : g.IsPreorder fun id => g.orderWithin (rank id + 1) id := by
    intro id
    show g.orderWithin (rank id + 1) id = _
    rw [orderWithin]
    cases hn : g.node? id with
    | none => rfl
    | some n =>
        refine congrArg (id :: ·) (List.flatMap_congr fun c hc => ?_)
        have hlt := hrank id c (mem_children_iff.mpr ⟨n, hn, hc⟩)
        exact orderWithin_eq hrank hlt (Nat.lt_succ_self _)
  refine ⟨_, hexists, fun order horder => funext fun id => ?_⟩
  -- a visit finds what either of them gives
  exact Option.some.inj ((visit_eq hrank horder id).symm.trans (visit_eq hrank hexists id))

/-- Below `id` there are the known nodes that links to children lead to. -/
theorem mem_preorder_iff (hrank : ∀ id child, child ∈ g.children id → rank child < rank id)
    (horder : g.IsPreorder order) {id x : Nat} :
    x ∈ order id ↔
      (∃ n, g.node? x = some n) ∧ ReflTransGen (fun a b => b ∈ g.children a) id x := by
  induction hr : rank id using Nat.strongRecOn generalizing id with
  | ind r ih =>
      rw [horder id]
      cases hn : g.node? id with
      | none =>
          simp only [List.not_mem_nil, false_iff, not_and]
          rintro ⟨n, hx⟩ hpath
          rcases ReflTransGen.cases_head hpath with rfl | ⟨c, hc, -⟩
          · exact absurd (hn.symm.trans hx) (by simp)
          · obtain ⟨m, hm, -⟩ := mem_children_iff.mp hc
            exact absurd (hn.symm.trans hm) (by simp)
      | some n =>
          have hchild : ∀ c ∈ n.children, x ∈ order c ↔
              (∃ n, g.node? x = some n) ∧ ReflTransGen (fun a b => b ∈ g.children a) c x := by
            intro c hc
            have hlt := hrank id c (mem_children_iff.mpr ⟨n, hn, hc⟩)
            exact ih (rank c) (hr ▸ hlt) rfl
          rw [List.mem_cons, List.mem_flatMap]
          constructor
          · rintro (rfl | ⟨c, hc, hx⟩)
            · exact ⟨⟨n, hn⟩, .refl⟩
            · obtain ⟨hknown, hpath⟩ := (hchild c hc).mp hx
              exact ⟨hknown, hpath.head (mem_children_iff.mpr ⟨n, hn, hc⟩)⟩
          · rintro ⟨hknown, hpath⟩
            rcases ReflTransGen.cases_head hpath with rfl | ⟨c, hc, hpath⟩
            · exact Or.inl rfl
            · obtain ⟨m, hm, hc⟩ := mem_children_iff.mp hc
              obtain rfl : n = m := Option.some.inj (hn.symm.trans hm)
              exact Or.inr ⟨c, hc, (hchild c hc).mpr ⟨hknown, hpath⟩⟩

/-! ## Up and down -/

/-- The way up follows a lineage to its end. -/
theorem climb_append {id : Nat} {chain : List Nat} (h : g.Lineage id chain) (below : List Nat) :
    (outcome g.stepUp (below ++ [id], id)).map Prod.fst = some (below ++ chain) := by
  induction h generalizing below with
  | @top id htop =>
      have hnone : g.parent? id = none := by
        rw [Option.eq_none_iff_forall_ne_some]
        intro p hp
        obtain ⟨n, hn, hparent⟩ := parent?_eq_some_iff.mp hp
        exact absurd (htop n hn) (by simp [hparent])
      have hstop : g.stepUp (below ++ [id], id) = none := by rw [stepUp, hnone]; rfl
      rw [outcome_of_none hstop]
      rfl
  | @step id p n above hn hparent _ ih =>
      have hp : g.parent? id = some p := parent?_eq_some_iff.mpr ⟨n, hn, hparent⟩
      have hnext : g.stepUp (below ++ [id], id) = some (below ++ [id] ++ [p], p) := by
        rw [stepUp, hp]
        rfl
      rw [outcome_of_some hnext, ih, List.append_assoc, List.singleton_append]

theorem exists_lineage (hrank : ∀ id p, g.parent? id = some p → rank p < rank id) (id : Nat) :
    ∃ chain, g.Lineage id chain := by
  induction hr : rank id using Nat.strongRecOn generalizing id with
  | ind r ih =>
      cases hp : g.parent? id with
      | none =>
          refine ⟨[id], .top fun n hn => ?_⟩
          rw [parent?, hn] at hp
          exact hp
      | some p =>
          obtain ⟨n, hn, hparent⟩ := parent?_eq_some_iff.mp hp
          obtain ⟨above, habove⟩ := ih (rank p) (hr ▸ hrank id p hp) p rfl
          exact ⟨id :: above, .step hn hparent habove⟩

/-- **A way up finds the lineage.** -/
theorem climb_eq_some_iff (hrank : ∀ id p, g.parent? id = some p → rank p < rank id) {id : Nat}
    {chain : List Nat} : g.climb id = some chain ↔ g.Lineage id chain := by
  constructor
  · intro h
    obtain ⟨lineage, hlineage⟩ := exists_lineage hrank id
    obtain rfl : lineage = chain := Option.some.inj ((climb_append hlineage []).symm.trans h)
    exact hlineage
  · intro h
    exact climb_append h []

theorem span_any_iff {id : Nat} :
    (g.span? id).any (side.enters · pos) = true ↔ g.Entered side pos id := by
  unfold span? Entered
  cases g.node? id <;> simp

theorem enteredChild?_eq_some_iff {id child : Nat} :
    g.enteredChild? side pos id = some child ↔ g.FirstEntered side pos id child := by
  have hspan : ∀ c, (!(g.span? c).any (side.enters · pos)) = true ↔ ¬g.Entered side pos c := by
    intro c
    rw [← span_any_iff, Bool.not_eq_true', Bool.not_eq_true]
  unfold enteredChild? FirstEntered children
  rw [List.find?_eq_some_iff_append]
  simp only [span_any_iff, hspan]
  cases g.node? id with
  | none => simp
  | some n =>
      constructor
      · rintro ⟨hentered, before, after, hsplit, hbefore⟩
        exact ⟨n, before, after, rfl, hsplit, hentered, hbefore⟩
      · rintro ⟨m, before, after, hm, hsplit, hentered, hbefore⟩
        obtain rfl := Option.some.inj hm
        exact ⟨hentered, before, after, hsplit, hbefore⟩

theorem enteredChild?_eq_none_iff {id : Nat} :
    g.enteredChild? side pos id = none ↔ ∀ child ∈ g.children id, ¬g.Entered side pos child := by
  unfold enteredChild?
  simp only [List.find?_eq_none, span_any_iff]

/-- **A look-up goes from first entered child to first entered child until there is none.** -/
theorem seek_eq_some_iff {id : Nat} :
    g.seek side pos = some id ↔
      ReflTransGen (g.FirstEntered side pos) g.root id ∧
        ∀ child ∈ g.children id, ¬g.Entered side pos child := by
  have hreaches : StateTransition.Reaches (g.enteredChild? side pos) g.root id ↔
      ReflTransGen (g.FirstEntered side pos) g.root id := by
    unfold StateTransition.Reaches
    simp only [Option.mem_def, enteredChild?_eq_some_iff]
  rw [seek, outcome_eq_some_iff, hreaches, enteredChild?_eq_none_iff]

/-- A look-up comes to an end. -/
theorem exists_seek (hrank : ∀ id child, child ∈ g.children id → rank child < rank id)
    (side : Side) (pos id : Nat) : ∃ last, outcome (g.enteredChild? side pos) id = some last := by
  induction hr : rank id using Nat.strongRecOn generalizing id with
  | ind r ih =>
      cases hc : g.enteredChild? side pos id with
      | none => exact ⟨id, outcome_of_none hc⟩
      | some child =>
          have hlt := hrank id child (List.mem_of_find?_eq_some hc)
          rw [outcome_of_some hc]
          exact ih (rank child) (hr ▸ hlt) child rfl

/-- Where one number falls along the links to parents and one along those to children, there is no
cycle. -/
theorem acyclic_of_ranks (up down : Nat → Nat)
    (hup : ∀ id p, g.parent? id = some p → up p < up id)
    (hdown : ∀ id child, child ∈ g.children id → down child < down id) : g.Acyclic := by
  have hfalls : ∀ {r : Nat → Nat → Prop} {rank : Nat → Nat}, (∀ a b, r a b → rank b < rank a) →
      ∀ id, ¬TransGen r id id := by
    intro r rank hr id hcycle
    have hlt : ∀ {a b}, TransGen r a b → rank b < rank a := by
      intro a b h
      induction h with
      | single h => exact hr _ _ h
      | tail _ h ih => exact Nat.lt_trans (hr _ _ h) ih
    exact Nat.lt_irrefl _ (hlt hcycle)
  exact ⟨hfalls hup, hfalls hdown⟩

/-! ## Walks over a table -/

theorem stepVisit_graph (t : Tree) : t.graph.stepVisit = t.stepVisit := by
  funext ⟨seen, stack⟩
  cases stack with
  | nil => rfl
  | cons id stack =>
      rw [Tree.stepVisit]
      cases hn : t.node? id with
      | none => exact stepVisit_unknown hn seen stack
      | some n => exact stepVisit_known hn seen stack

theorem stepUp_graph (t : Tree) : t.graph.stepUp = t.stepUp := by
  funext ⟨found, id⟩
  rfl

/-- On a table without a cycle the bounded walks find what the walks of this file find. -/
theorem table_walks {t : Tree} (h : t.graph.Acyclic) :
    t.graph.visit = some t.preorder ∧ (∀ id, t.graph.climb id = some (t.ancestors id)) ∧
      ∀ side pos, t.graph.seek side pos = some (t.resolve pos side) := by
  have hacyclic : t.Acyclic := ⟨h.parents, h.children⟩
  obtain ⟨hseek, hclimb, hvisit⟩ := hacyclic.walks_end
  refine ⟨?_, fun id => ?_, hseek⟩
  · rw [visit, stepVisit_graph]
    exact hvisit
  · rw [climb, stepUp_graph]
    exact hclimb id

end Graph

/--
**What the walks find**, where there are finitely many nodes and no cycle. The recursion for document
order has one solution, and a visit ends with what that gives for the root. Every way up ends, with
the lineage. Every look-up ends, at the last of the first entered children. On a table the walks
that run find the same.
-/
theorem walks_explained (g : Graph) (hfinite : {id | (g.node? id).isSome}.Finite)
    (hacyclic : g.Acyclic) :
    ((∃! order, g.IsPreorder order) ∧
      ∀ order, g.IsPreorder order → g.visit = some (order g.root)) ∧
    (∀ id, (∃ chain, g.climb id = some chain) ∧
      ∀ chain, g.climb id = some chain ↔ g.Lineage id chain) ∧
    (∀ side pos, (∃ id, g.seek side pos = some id) ∧
      ∀ id, g.seek side pos = some id ↔
        ReflTransGen (g.FirstEntered side pos) g.root id ∧
          ∀ child ∈ g.children id, ¬g.Entered side pos child) ∧
    ∀ t : Tree, t.graph = g →
      g.visit = some t.preorder ∧ (∀ id, g.climb id = some (t.ancestors id)) ∧
        ∀ side pos, g.seek side pos = some (t.resolve pos side) := by
  obtain ⟨down, hdown⟩ := Graph.exists_childRank hfinite hacyclic
  obtain ⟨up, hup⟩ := Graph.exists_parentRank hfinite hacyclic
  refine ⟨⟨Graph.existsUnique_preorder hdown, fun order horder => ?_⟩, fun id => ⟨?_, ?_⟩,
    fun side pos => ⟨?_, ?_⟩, ?_⟩
  · exact Graph.visit_eq hdown horder g.root
  · obtain ⟨chain, hchain⟩ := Graph.exists_lineage hup id
    exact ⟨chain, (Graph.climb_eq_some_iff hup).mpr hchain⟩
  · exact fun chain => Graph.climb_eq_some_iff hup
  · exact Graph.exists_seek hdown side pos g.root
  · exact fun id => Graph.seek_eq_some_iff
  · rintro t rfl
    exact Graph.table_walks hacyclic

/-- A node that is the child of two others, twice of one of them, below a root that lists an unknown
child; one parent is unknown as well, and ids have gaps. -/
def sharingGraph : Graph where
  root := 0
  node?
    | 0 => some ⟨.selector, ⟨0, 9⟩, false, none, [2, 5, 7]⟩
    | 2 => some ⟨.labelMatcher, ⟨0, 4⟩, false, some 1, [9]⟩
    | 5 => some ⟨.labelMatcher, ⟨4, 9⟩, false, some 0, [9, 9]⟩
    | 9 => some ⟨.string, ⟨1, 3⟩, false, some 2, []⟩
    | _ => none

theorem sharingGraph_finite : {id | (sharingGraph.node? id).isSome}.Finite := by
  refine (Set.finite_lt_nat 10).subset fun id hid => ?_
  by_contra hge
  obtain ⟨k, rfl⟩ := Nat.exists_eq_add_of_le' (Nat.not_lt.mp hge)
  exact absurd hid (by simp [sharingGraph])

theorem sharingGraph_acyclic : sharingGraph.Acyclic := by
  refine Graph.acyclic_of_ranks id (10 - ·) (fun id p hp => ?_) fun id child hc => ?_
  · obtain ⟨n, hn, hparent⟩ := Graph.parent?_eq_some_iff.mp hp
    unfold sharingGraph at hn
    dsimp only at hn
    split at hn <;> cases hn <;> cases hparent <;> decide
  · obtain ⟨n, hn, hmem⟩ := Graph.mem_children_iff.mp hc
    unfold sharingGraph at hn
    dsimp only at hn
    split at hn <;> cases hn <;> revert child <;> decide

/-- The shared node is visited each time that it is a child. -/
theorem walks_explained_sharing :
    {id | (sharingGraph.node? id).isSome}.Finite ∧ sharingGraph.Acyclic ∧
      sharingGraph.visit = some [0, 2, 9, 5, 9, 9] ∧ sharingGraph.climb 9 = some [9, 2, 1] ∧
      sharingGraph.seek .before 3 = some 9 := by
  obtain ⟨⟨⟨order, horder, -⟩, hvisit⟩, hclimb, hseek, -⟩ :=
    walks_explained sharingGraph sharingGraph_finite sharingGraph_acyclic
  refine ⟨sharingGraph_finite, sharingGraph_acyclic, ?_, ((hclimb 9).2 _).mpr ?_,
    ((hseek .before 3).2 9).mpr ⟨?_, ?_⟩⟩
  · have h9 : order 9 = [9] := horder 9
    have h7 : order 7 = [] := horder 7
    have h5 : order 5 = 5 :: [9, 9].flatMap order := horder 5
    have h2 : order 2 = 2 :: [9].flatMap order := horder 2
    have h0 : order 0 = 0 :: [2, 5, 7].flatMap order := horder 0
    rw [hvisit order horder]
    simp [sharingGraph, h0, h2, h5, h7, h9]
  · exact .step rfl rfl (.step rfl rfl (.top fun n hn => by cases hn))
  · have h2 : sharingGraph.FirstEntered .before 3 0 2 :=
      ⟨_, [], [5, 7], rfl, rfl, ⟨_, rfl, rfl⟩, by simp⟩
    have h9 : sharingGraph.FirstEntered .before 3 2 9 :=
      ⟨_, [], [], rfl, rfl, ⟨_, rfl, rfl⟩, by simp⟩
    exact .tail (.single h2) h9
  · intro child hc
    exact absurd hc List.not_mem_nil

end LogQL.Tree
