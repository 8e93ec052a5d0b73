import LogQL.Proofs.Tree.Links
import Mathlib.Data.List.Induction

/-!
# What a sequence of events builds

The events alone say which of them are mistakes: `startsAfter` keeps the starts of the nodes that
are open, and an end is a mistake when nothing is open or when it comes before its start. A draft
remembers the first of these (`fault_run`), goes on after it, and has open exactly the nodes whose
starts are kept (`sound_run`).

What comes out of a draft at the end is settled in `LogQL.Proofs.Tree.WellFormed`.
-/

namespace LogQL.Tree

/-! ## Mistakes, read off the events -/

/-- The starts of the open nodes after one more event, the innermost first. -/
def Event.openStarts (starts : List Nat) : Event → List Nat
  | .opened _ start => start :: starts
  | .closed _ => starts.tail
  | .leaf _ _ | .unreadable _ | .markError => starts

/-- A span that ends before it starts is a mistake. -/
def inverted? (span : Span) : Option Fault :=
  if span.stop < span.start then some (.inverted span.start span.stop) else none

/-- The mistake that an event is, where nodes with these starts are open. -/
def Event.mistake? (starts : List Nat) : Event → Option Fault
  | .closed stop =>
    match starts with
    | [] => some .closeWithoutOpen
    | start :: _ => inverted? ⟨start, stop⟩
  | .leaf _ span | .unreadable span => inverted? span
  | .opened _ _ | .markError => none

/-- The starts of the nodes that some events leave open, the innermost first. -/
def startsAfter (events : List Event) : List Nat := events.foldl Event.openStarts []

/-- The mistakes from some event on, in order. -/
def mistakesFrom : (starts : List Nat) → List Event → List Fault
  | _, [] => []
  | starts, e :: es => (e.mistake? starts).toList ++ mistakesFrom (e.openStarts starts) es

/-- All mistakes of a sequence of events, in order. -/
def mistakes (events : List Event) : List Fault := mistakesFrom [] events

theorem startsAfter_snoc (events : List Event) (e : Event) :
    startsAfter (events ++ [e]) = e.openStarts (startsAfter events) := by
  simp [startsAfter]

theorem mistakesFrom_snoc (starts : List Nat) (events : List Event) (e : Event) :
    mistakesFrom starts (events ++ [e]) =
      mistakesFrom starts events ++ (e.mistake? (events.foldl Event.openStarts starts)).toList := by
  induction events generalizing starts with
  | nil => simp [mistakesFrom]
  | cons x xs ih =>
      simp only [List.cons_append, mistakesFrom, ih, List.append_assoc, List.foldl_cons]

theorem mistakes_snoc (events : List Event) (e : Event) :
    mistakes (events ++ [e]) = mistakes events ++ (e.mistake? (startsAfter events)).toList :=
  mistakesFrom_snoc [] events e

/-! ## What holds of a draft at any moment -/

namespace Draft

/-- The draft after some events. -/
def run (root : Kind) (length : Nat) (events : List Event) : Draft :=
  events.foldl apply (start root length)

theorem run_snoc (root : Kind) (length : Nat) (events : List Event) (e : Event) :
    run root length (events ++ [e]) = (run root length events).apply e := by
  simp [run]

/-- The table is linked below its root, and the open nodes are those whose starts are kept. -/
structure Sound (length : Nat) (starts : List Nat) (d : Draft) : Prop where
  linked : Linked d.nodes
  root : ∃ n, d.nodes[0]? = some n ∧ n.span = ⟨0, length⟩
  pending : List.Forall₂
    (fun id start => 0 < id ∧ ∃ n, d.nodes[id]? = some n ∧ n.span.start = start) d.pending starts

theorem sound_start (root : Kind) (length : Nat) : Sound length [] (start root length) where
  linked := by
    have hone : ∀ {id : Nat} {n : Node}, (start root length).nodes[id]? = some n →
        id = 0 ∧ n = ⟨root, ⟨0, length⟩, false, none, []⟩ := by
      intro id n hn
      have hid := size_of_getElem? hn
      obtain rfl : id = 0 := Nat.lt_one_iff.mp hid
      exact ⟨rfl, (Option.some.inj hn).symm⟩
    refine ⟨?_, ?_, ?_, ?_, ?_⟩
    · intro n hn
      rw [(hone hn).2]
    · intro id n hn hpos
      have := (hone hn).1
      omega
    · intro p n hn i
      rw [(hone hn).2]
      simp only [List.not_mem_nil, false_iff, not_exists, not_and]
      intro m hm
      rw [(hone hm).2]
      simp
    · intro p n hn
      rw [(hone hn).2]
      exact List.Pairwise.nil
    · intro id n hn
      rw [(hone hn).2]
      exact Nat.zero_le _
  root := ⟨_, rfl, rfl⟩
  pending := List.Forall₂.nil

variable {length : Nat} {starts : List Nat} {d : Draft}

/-- A mistake changes neither the table nor what is open. -/
theorem Sound.fail (h : Sound length starts d) (fault : Fault) :
    Sound length starts (d.fail fault) := ⟨h.linked, h.root, h.pending⟩

/-- The node that the next one goes below is in the table. -/
theorem Sound.parent_lt (h : Sound length starts d) : d.pending.headD 0 < d.nodes.size := by
  have hpending := h.pending
  cases hp : d.pending with
  | nil =>
      obtain ⟨n, hn, -⟩ := h.root
      exact size_of_getElem? hn
  | cons id rest =>
      rw [hp] at hpending
      obtain ⟨_, _, ⟨-, n, hn, -⟩, -, -⟩ := List.forall₂_cons_left_iff.mp hpending
      exact size_of_getElem? hn

theorem Sound.push (h : Sound length starts d) {kind : Kind} {span : Span} {isError : Bool}
    (hspan : span.start ≤ span.stop) : Sound length starts (d.push kind span isError) where
  linked := linked_adopt h.linked h.parent_lt hspan
  root := by
    obtain ⟨n, hn, hroot⟩ := h.root
    obtain ⟨m, hm, -, -, hspan⟩ := adopt_of_old hn
    exact ⟨m, hm, hspan.trans hroot⟩
  pending := by
    refine h.pending.imp ?_
    rintro id start ⟨hpos, n, hn, hstart⟩
    obtain ⟨m, hm, -, -, hspan⟩ := adopt_of_old hn
    exact ⟨hpos, m, hm, by rw [hspan, hstart]⟩

theorem Sound.pushLeaf (h : Sound length starts d) (kind : Kind) (span : Span) (isError : Bool) :
    Sound length starts (d.pushLeaf kind span isError) := by
  unfold Draft.pushLeaf
  split
  · exact h.fail _
  · exact h.push (by omega)

/-- A node that is opened joins those that are open. -/
theorem Sound.open (h : Sound length starts d) (kind : Kind) (start : Nat) :
    Sound length (start :: starts)
      { d.push kind ⟨start, start⟩ false with pending := d.nodes.size :: d.pending } where
  linked := (h.push (Nat.le_refl start)).linked
  root := (h.push (Nat.le_refl start)).root
  pending := by
    -- the root is in the table, so the new id is not 0
    obtain ⟨n, hn, -⟩ := h.root
    refine List.Forall₂.cons ⟨Nat.zero_lt_of_lt (size_of_getElem? hn), _, adopt_last, rfl⟩ ?_
    exact (h.push (Nat.le_refl start)).pending

/-- Changing the nodes in place, with links and starts as they are, and not the root's span. -/
theorem Sound.modify (h : Sound length starts d) {k : Nat} {f : Node → Node}
    (hparent : ∀ n, (f n).parent = n.parent) (hchildren : ∀ n, (f n).children = n.children)
    (hspan : ∀ n, d.nodes[k]? = some n →
      (f n).span.start = n.span.start ∧ n.span.start ≤ (f n).span.stop)
    (hroot : k = 0 → ∀ n, (f n).span = n.span) :
    Sound length starts { d with nodes := d.nodes.modify k f } where
  linked := by
    refine linked_modify h.linked hparent hchildren fun n hn => ?_
    rw [(hspan n hn).1]
    exact (hspan n hn).2
  root := by
    obtain ⟨n, hn, hr⟩ := h.root
    refine ⟨_, getElem?_modify_eq_some.mpr ⟨n, hn, rfl⟩, ?_⟩
    split
    · rename_i hk
      rw [hroot hk, hr]
    · exact hr
  pending := by
    refine h.pending.imp ?_
    rintro id start ⟨hpos, n, hn, hstart⟩
    refine ⟨hpos, _, getElem?_modify_eq_some.mpr ⟨n, hn, rfl⟩, ?_⟩
    split
    · rename_i hk
      rw [(hspan n (hk ▸ hn)).1, hstart]
    · exact hstart

/-- What closing does where a node is open: its end is moved to its start at least. -/
theorem close_cons {id : Nat} {rest : List Nat} {n : Node} (hp : d.pending = id :: rest)
    (hn : d.nodes[id]? = some n) (stop : Nat) :
    d.close stop =
      { nodes := d.nodes.modify id fun m =>
          { m with span := ⟨n.span.start, max stop n.span.start⟩ }
        pending := rest
        fault := d.fault <|> inverted? ⟨n.span.start, stop⟩ } := by
  unfold Draft.close
  rw [hp]
  simp only [hn, Option.map_some, Option.getD_some, inverted?]
  by_cases hlt : stop < n.span.start
  · rw [if_pos hlt, if_pos hlt]; rfl
  · rw [if_neg hlt, if_neg hlt]
    cases d.fault <;> rfl

theorem close_nil (hp : d.pending = []) (stop : Nat) : d.close stop = d.fail .closeWithoutOpen := by
  unfold Draft.close
  rw [hp]

theorem Sound.close (h : Sound length starts d) (stop : Nat) :
    Sound length starts.tail (d.close stop) := by
  have hpending := h.pending
  cases hp : d.pending with
  | nil =>
      rw [hp] at hpending
      obtain rfl := List.forall₂_nil_left_iff.mp hpending
      rw [close_nil hp]
      exact h.fail _
  | cons id rest =>
      rw [hp] at hpending
      obtain ⟨start, outer, ⟨hpos, n, hn, -⟩, houter, rfl⟩ :=
        List.forall₂_cons_left_iff.mp hpending
      have hmod : Sound length (start :: outer) { d with nodes := d.nodes.modify id fun m =>
          { m with span := ⟨n.span.start, max stop n.span.start⟩ } } := by
        refine h.modify (fun _ => rfl) (fun _ => rfl) (fun m hm => ?_) fun h0 => by omega
        obtain rfl : n = m := Option.some.inj (hn.symm.trans hm)
        exact ⟨rfl, Nat.le_max_right ..⟩
      -- what stays open is the rest of the list, in the table after the change
      have hrest := hmod.pending
      rw [close_cons hp hn]
      refine ⟨hmod.linked, hmod.root, ?_⟩
      simp only [hp] at hrest
      obtain ⟨_, _, -, hrest, he⟩ := List.forall₂_cons_left_iff.mp hrest
      rw [(List.cons.inj he).2]
      exact hrest

theorem Sound.apply (h : Sound length starts d) (e : Event) :
    Sound length (e.openStarts starts) (d.apply e) := by
  cases e with
  | opened kind start => exact h.open kind start
  | closed stop => exact h.close stop
  | leaf kind span => exact h.pushLeaf kind span false
  | unreadable span => exact h.pushLeaf .error span true
  | markError =>
      refine h.modify (fun _ => rfl) (fun _ => rfl) (fun n hn => ⟨rfl, ?_⟩) (fun _ _ => rfl)
      exact h.linked.ordered hn

theorem sound_run (root : Kind) (length : Nat) (events : List Event) :
    Sound length (startsAfter events) (run root length events) := by
  induction events using List.reverseRecOn with
  | nil => exact sound_start root length
  | append_singleton events e ih =>
      rw [startsAfter_snoc, run_snoc]
      exact ih.apply e

/-! ## The mistake that is remembered -/

theorem fault_pushLeaf (d : Draft) (kind : Kind) (span : Span) (isError : Bool) :
    (d.pushLeaf kind span isError).fault = (d.fault <|> inverted? span) := by
  unfold Draft.pushLeaf inverted?
  split
  · rfl
  · show d.fault = (d.fault <|> none)
    cases d.fault <;> rfl

theorem Sound.fault_apply (h : Sound length starts d) (e : Event) :
    (d.apply e).fault = (d.fault <|> e.mistake? starts) := by
  have hnone : d.fault = (d.fault <|> none) := by cases d.fault <;> rfl
  cases e with
  | opened kind start => exact hnone
  | leaf kind span => exact fault_pushLeaf d kind span false
  | unreadable span => exact fault_pushLeaf d .error span true
  | markError => exact hnone
  | closed stop =>
      have hpending := h.pending
      show (d.close stop).fault = _
      cases hp : d.pending with
      | nil =>
          rw [hp] at hpending
          obtain rfl := List.forall₂_nil_left_iff.mp hpending
          rw [close_nil hp]
          rfl
      | cons id rest =>
          rw [hp] at hpending
          obtain ⟨start, outer, ⟨-, n, hn, hstart⟩, -, rfl⟩ :=
            List.forall₂_cons_left_iff.mp hpending
          rw [close_cons hp hn, hstart]
          rfl

/-- **A draft remembers the first mistake among its events.** -/
theorem fault_run (root : Kind) (length : Nat) (events : List Event) :
    (run root length events).fault = (mistakes events).head? := by
  induction events using List.reverseRecOn with
  | nil => rfl
  | append_singleton events e ih =>
      -- only an event without an earlier mistake can add the first one
      rw [run_snoc, (sound_run root length events).fault_apply, ih, mistakes_snoc,
        List.head?_append]
      cases (mistakes events).head? <;> cases e.mistake? (startsAfter events) <;> rfl

theorem length_pending_run (root : Kind) (length : Nat) (events : List Event) :
    (run root length events).pending.length = (startsAfter events).length :=
  (sound_run root length events).pending.length_eq

end Draft

end LogQL.Tree
