import LogQL.Proofs.Tree.Building

/-!
# The nodes that the events describe

Each event that adds a node gives it the next id, so the id is known from the events before it
(`idAfter`). What the node looks like in the end is known from the events as well: a leaf keeps the
span it came with, a node that is opened ends where the closing event with only complete nodes in
between says (`Complete`), and the parent of a node is the one that was opened last and not yet
closed.

The argument is a frame: an event changes the span of an old node only when it closes it, and never
its kind or its parent (`apply_old`).
-/

namespace LogQL.Tree

/-- An event that adds a node. -/
def Event.adds : Event → Bool
  | .opened _ _ => true
  | .leaf _ span | .unreadable span => span.start ≤ span.stop
  | .closed _ | .markError => false

/-- The kind and the span of the childless node that an event adds. -/
def Event.leaf? : Event → Option (Kind × Span)
  | .leaf kind span => some (kind, span)
  | .unreadable span => some (.error, span)
  | .opened _ _ | .closed _ | .markError => none

/-- The id of the node that is added next after some events. -/
def idAfter (events : List Event) : Nat := 1 + events.countP Event.adds

/-- Events that close just the nodes they open. -/
inductive Complete : List Event → Prop where
  | nil : Complete []
  | leaf {e : Event} {kind : Kind} {span : Span} {es : List Event} :
      e.leaf? = some (kind, span) → Complete es → Complete (e :: es)
  | markError {es : List Event} : Complete es → Complete (.markError :: es)
  | node {kind : Kind} {start stop : Nat} {inner rest : List Event} :
      Complete inner → Complete rest →
      Complete (.opened kind start :: (inner ++ .closed stop :: rest))

/-- A table holds the nodes that the events describe. -/
structure Records (events : List Event) (nodes : Array Node) : Prop where
  /-- There is the root and one node for each event that adds one. -/
  size : nodes.size = idAfter events
  /-- A childless node has the span it came with. -/
  leaf : ∀ pre e post kind span, events = pre ++ e :: post → e.leaf? = some (kind, span) →
    e.adds = true → ∃ n, nodes[idAfter pre]? = some n ∧ n.kind = kind ∧ n.span = span
  /-- A node that is closed ends there, or at its start if that comes later. -/
  node : ∀ pre kind start inner stop post,
    events = pre ++ .opened kind start :: (inner ++ .closed stop :: post) → Complete inner →
    ∃ n, nodes[idAfter pre]? = some n ∧ n.kind = kind ∧ n.span = ⟨start, max stop start⟩
  /-- A node is below the one that was opened last and is not closed yet. -/
  parent : ∀ pre kind start inner e post,
    events = pre ++ .opened kind start :: (inner ++ e :: post) → Complete inner → e.adds = true →
    ∃ n, nodes[idAfter (pre ++ .opened kind start :: inner)]? = some n ∧
      n.parent = some (idAfter pre)
  /-- Where every node is closed, it is below the root. -/
  top : ∀ pre e post, events = pre ++ e :: post → Complete pre → e.adds = true →
    ∃ n, nodes[idAfter pre]? = some n ∧ n.parent = some 0

namespace Draft

/-! ## What an event leaves alone -/

theorem close_shape (d : Draft) (stop : Nat) :
    (d.close stop).pending = d.pending.tail ∧
      (d.close stop).nodes.size = d.nodes.size ∧
      ∀ {id : Nat} {n : Node}, d.nodes[id]? = some n →
        ∃ m, (d.close stop).nodes[id]? = some m ∧ m.kind = n.kind ∧ m.parent = n.parent ∧
          (d.pending.head? ≠ some id → m.span = n.span) := by
  unfold Draft.close
  cases hp : d.pending with
  | nil => exact ⟨hp, rfl, fun hn => ⟨_, hn, rfl, rfl, fun _ => rfl⟩⟩
  | cons k rest =>
      dsimp only
      have hnodes : ∀ f : Fault, (if stop < ((d.nodes[k]?).map (·.span.start)).getD 0 then d.fail f
          else d).nodes = d.nodes := by
        intro f
        split <;> rfl
      refine ⟨rfl, by rw [Array.size_modify, hnodes], fun {id n} hn => ?_⟩
      refine ⟨_, by rw [hnodes]; exact getElem?_modify_eq_some.mpr ⟨n, hn, rfl⟩, ?_⟩
      split
      · rename_i hk
        exact ⟨rfl, rfl, fun hne => absurd (congrArg some hk) hne⟩
      · exact ⟨rfl, rfl, fun _ => rfl⟩

/-- **The frame of an event.** It changes the span of an old node only to close it. -/
theorem apply_old (d : Draft) (e : Event) {id : Nat} {n : Node} (hn : d.nodes[id]? = some n) :
    ∃ m, (d.apply e).nodes[id]? = some m ∧ m.kind = n.kind ∧ m.parent = n.parent ∧
      ((∀ stop, e = .closed stop → d.pending.head? ≠ some id) → m.span = n.span) := by
  have hpush : ∀ (kind : Kind) (span : Span) (isError : Bool),
      ∃ m, (d.push kind span isError).nodes[id]? = some m ∧ m.kind = n.kind ∧
        m.parent = n.parent ∧ m.span = n.span :=
    fun _ _ _ => adopt_of_old hn
  have hleaf : ∀ (kind : Kind) (span : Span) (isError : Bool),
      ∃ m, (d.pushLeaf kind span isError).nodes[id]? = some m ∧ m.kind = n.kind ∧
        m.parent = n.parent ∧ m.span = n.span := by
    intro kind span isError
    unfold Draft.pushLeaf
    split
    · exact ⟨n, hn, rfl, rfl, rfl⟩
    · exact hpush kind span isError
  cases e with
  | opened kind start =>
      obtain ⟨m, hm, hkind, hparent, hspan⟩ := hpush kind ⟨start, start⟩ false
      exact ⟨m, hm, hkind, hparent, fun _ => hspan⟩
  | closed stop =>
      obtain ⟨m, hm, hkind, hparent, hspan⟩ := (d.close_shape stop).2.2 hn
      exact ⟨m, hm, hkind, hparent, fun h => hspan (h stop rfl)⟩
  | leaf kind span =>
      obtain ⟨m, hm, hkind, hparent, hspan⟩ := hleaf kind span false
      exact ⟨m, hm, hkind, hparent, fun _ => hspan⟩
  | unreadable span =>
      obtain ⟨m, hm, hkind, hparent, hspan⟩ := hleaf .error span true
      exact ⟨m, hm, hkind, hparent, fun _ => hspan⟩
  | markError =>
      refine ⟨_, getElem?_modify_eq_some.mpr ⟨n, hn, rfl⟩, ?_⟩
      split <;> exact ⟨rfl, rfl, fun _ => rfl⟩

theorem pending_apply (d : Draft) (e : Event) :
    (d.apply e).pending =
      match e with
      | .opened _ _ => d.nodes.size :: d.pending
      | .closed _ => d.pending.tail
      | .leaf _ _ | .unreadable _ | .markError => d.pending := by
  have hleaf : ∀ (kind : Kind) (span : Span) (isError : Bool),
      (d.pushLeaf kind span isError).pending = d.pending := by
    intro kind span isError
    unfold Draft.pushLeaf
    split <;> rfl
  cases e with
  | opened kind start => rfl
  | closed stop => exact (d.close_shape stop).1
  | leaf kind span => exact hleaf kind span false
  | unreadable span => exact hleaf .error span true
  | markError => rfl

theorem pending_leaf {d : Draft} {e : Event} {kind : Kind} {span : Span}
    (h : e.leaf? = some (kind, span)) : (d.apply e).pending = d.pending := by
  rw [pending_apply]
  cases e with
  | leaf => rfl
  | unreadable => rfl
  | opened | closed | markError => exact absurd h (by simp [Event.leaf?])

/-- An event that adds a node puts it at the end, below the innermost open node. -/
theorem apply_adds (d : Draft) {e : Event} (h : e.adds = true) :
    (d.apply e).nodes.size = d.nodes.size + 1 ∧
      ∃ n, (d.apply e).nodes[d.nodes.size]? = some n ∧ n.parent = some (d.pending.headD 0) ∧
        (∀ kind start, e = .opened kind start → n.kind = kind ∧ n.span = ⟨start, start⟩) ∧
        ∀ kind span, e.leaf? = some (kind, span) → n.kind = kind ∧ n.span = span := by
  have hleaf : ∀ (kind : Kind) (span : Span) (isError : Bool), span.start ≤ span.stop →
      (d.pushLeaf kind span isError).nodes.size = d.nodes.size + 1 ∧
        (d.pushLeaf kind span isError).nodes[d.nodes.size]? =
          some ⟨kind, span, isError, some (d.pending.headD 0), []⟩ := by
    intro kind span isError hle
    rw [Draft.pushLeaf, if_neg (Nat.not_lt.mpr hle)]
    exact ⟨size_adopt, adopt_last⟩
  cases e with
  | opened kind start =>
      refine ⟨size_adopt, _, adopt_last, rfl, ?_, ?_⟩
      · rintro _ _ ⟨⟩
        exact ⟨rfl, rfl⟩
      · rintro _ _ ⟨⟩
  | leaf kind span =>
      obtain ⟨hsize, hlast⟩ := hleaf kind span false (of_decide_eq_true h)
      refine ⟨hsize, _, hlast, rfl, ?_, ?_⟩
      · rintro _ _ ⟨⟩
      · rintro _ _ ⟨⟩
        exact ⟨rfl, rfl⟩
  | unreadable span =>
      obtain ⟨hsize, hlast⟩ := hleaf .error span true (of_decide_eq_true h)
      refine ⟨hsize, _, hlast, rfl, ?_, ?_⟩
      · rintro _ _ ⟨⟩
      · rintro _ _ ⟨⟩
        exact ⟨rfl, rfl⟩
  | closed stop => exact absurd h (by simp [Event.adds])
  | markError => exact absurd h (by simp [Event.adds])

theorem size_apply (d : Draft) (e : Event) :
    (d.apply e).nodes.size = d.nodes.size + if e.adds then 1 else 0 := by
  by_cases h : e.adds = true
  · rw [if_pos h, (d.apply_adds h).1]
  · rw [if_neg h, Nat.add_zero]
    have hleaf : ∀ (kind : Kind) (span : Span) (isError : Bool), ¬ span.start ≤ span.stop →
        (d.pushLeaf kind span isError).nodes = d.nodes := by
      intro kind span isError hlt
      rw [Draft.pushLeaf, if_pos (Nat.not_le.mp hlt)]
      rfl
    cases e with
    | opened kind start => exact absurd rfl h
    | closed stop => exact (d.close_shape stop).2.1
    | leaf kind span => exact congrArg _ (hleaf kind span false fun hle => h (decide_eq_true hle))
    | unreadable span => exact congrArg _ (hleaf .error span true fun hle => h (decide_eq_true hle))
    | markError => exact Array.size_modify

/-! ## What a run leaves alone -/

variable {root : Kind} {length : Nat}

theorem size_run (root : Kind) (length : Nat) (events : List Event) :
    (run root length events).nodes.size = idAfter events := by
  induction events using List.reverseRecOn with
  | nil => rfl
  | append_singleton events e ih =>
      rw [run_snoc, size_apply, ih, idAfter, idAfter, List.countP_append, List.countP_singleton,
        Nat.add_assoc]

/-- The draft after more events, from the draft before them. -/
theorem run_append (pre post : List Event) :
    run root length (pre ++ post) = post.foldl apply (run root length pre) := by
  simp [run]

/-- **The frame of a run.** A node that is not open keeps its span, and any node its parent. -/
theorem foldl_apply_old (es : List Event) {d : Draft} {id : Nat} {n : Node}
    (hn : d.nodes[id]? = some n) :
    ∃ m, (es.foldl apply d).nodes[id]? = some m ∧ m.kind = n.kind ∧ m.parent = n.parent ∧
      (id ∉ d.pending → m.span = n.span) := by
  induction es generalizing d n with
  | nil => exact ⟨n, hn, rfl, rfl, fun _ => rfl⟩
  | cons e es ih =>
      obtain ⟨m, hm, hkind, hparent, hspan⟩ := d.apply_old e hn
      obtain ⟨m', hm', hkind', hparent', hspan'⟩ := ih hm
      refine ⟨m', hm', hkind'.trans hkind, hparent'.trans hparent, fun hid => ?_⟩
      have hid' : id ∉ (d.apply e).pending := by
        rw [pending_apply]
        have hlt := size_of_getElem? hn
        cases e with
        | opened kind start =>
            rw [List.mem_cons, not_or]
            exact ⟨Nat.ne_of_lt hlt, hid⟩
        | closed stop => exact fun h => hid (List.mem_of_mem_tail h)
        | leaf kind span => exact hid
        | unreadable span => exact hid
        | markError => exact hid
      -- the node that closing would change is open, and this one is not
      refine (hspan' hid').trans (hspan fun _ _ hhead => hid ?_)
      exact List.mem_of_head? hhead

/-- A draft that has the same nodes open, and the old nodes with the same kinds and spans. -/
def Restores (d d' : Draft) : Prop :=
  d'.pending = d.pending ∧ ∀ {id : Nat} {n : Node}, d.nodes[id]? = some n →
    ∃ m, d'.nodes[id]? = some m ∧ m.kind = n.kind ∧ m.span = n.span

theorem Restores.trans {d d' d'' : Draft} (h : Restores d d') (h' : Restores d' d'') :
    Restores d d'' := by
  refine ⟨h'.1.trans h.1, fun hn => ?_⟩
  obtain ⟨m, hm, hkind, hspan⟩ := h.2 hn
  obtain ⟨m', hm', hkind', hspan'⟩ := h'.2 hm
  exact ⟨m', hm', hkind'.trans hkind, hspan'.trans hspan⟩

/-- An event that neither opens nor closes a node restores the draft. -/
theorem restores_apply (d : Draft) {e : Event} (hpending : (d.apply e).pending = d.pending)
    (hclosed : ∀ stop, e ≠ .closed stop) : Restores d (d.apply e) := by
  refine ⟨hpending, fun hn => ?_⟩
  obtain ⟨m, hm, hkind, -, hspan⟩ := d.apply_old e hn
  exact ⟨m, hm, hkind, hspan fun stop he => absurd he (hclosed stop)⟩

/-- Opening a node and then complete events: it is open, and its span is still empty. -/
theorem open_then {d d' : Draft} {kind : Kind} {start : Nat}
    (h : Restores (d.apply (.opened kind start)) d') :
    d'.pending = d.nodes.size :: d.pending ∧
      ∃ n, d'.nodes[d.nodes.size]? = some n ∧ n.kind = kind ∧ n.span = ⟨start, start⟩ := by
  refine ⟨h.1, ?_⟩
  obtain ⟨-, n, hn, -, hopened, -⟩ := d.apply_adds (e := .opened kind start) rfl
  obtain ⟨m, hm, hkind, hspan⟩ := h.2 hn
  obtain ⟨hk, hs⟩ := hopened kind start rfl
  exact ⟨m, hm, hkind.trans hk, hspan.trans hs⟩

/-- **Complete events restore the draft.** -/
theorem restores_complete {es : List Event} (h : Complete es) :
    ∀ d : Draft, Restores d (es.foldl apply d) := by
  induction h with
  | nil => exact fun d => ⟨rfl, fun hn => ⟨_, hn, rfl, rfl⟩⟩
  | @leaf e _ _ _ hleaf _ ih =>
      intro d
      refine (d.restores_apply (pending_leaf hleaf) ?_).trans (ih _)
      rintro stop rfl
      exact absurd hleaf (by simp [Event.leaf?])
  | markError _ ih =>
      intro d
      refine (d.restores_apply rfl ?_).trans (ih _)
      rintro stop ⟨⟩
  | @node kind start stop inner rest _ _ ihi ihr =>
      intro d
      rw [List.foldl_cons, List.foldl_append, List.foldl_cons]
      refine Restores.trans ?_ (ihr _)
      -- the node that is closed is the one opened here, so it is none of the old ones
      have hin := ihi (d.apply (.opened kind start))
      obtain ⟨hpending, -⟩ := open_then hin
      refine ⟨by rw [pending_apply, hpending, List.tail_cons], fun {id n} hn => ?_⟩
      obtain ⟨m, hm, hkind, -, hspan⟩ := d.apply_old (.opened kind start) hn
      obtain ⟨m', hm', hkind', hspan'⟩ := hin.2 hm
      obtain ⟨m'', hm'', hkind'', -, hspan''⟩ := apply_old _ (.closed stop) hm'
      refine ⟨m'', hm'', hkind''.trans (hkind'.trans hkind), ?_⟩
      have hne : d.nodes.size ≠ id := Nat.ne_of_gt (size_of_getElem? hn)
      refine (hspan'' fun _ _ => ?_).trans (hspan'.trans (hspan fun _ he => by cases he))
      rw [hpending]
      exact fun he => hne (Option.some.inj he)

end Draft

/-! ## The table at the end -/

open Draft

variable {root : Kind} {length : Nat}

/-- The open nodes of a draft have been added to it. -/
theorem lt_idAfter_of_mem_pending {events : List Event} {id : Nat}
    (h : id ∈ (run root length events).pending) : id < idAfter events := by
  rw [← size_run root length]
  induction events using List.reverseRecOn with
  | nil => exact absurd h List.not_mem_nil
  | append_singleton events e ih =>
      rw [run_snoc, pending_apply] at h
      rw [run_snoc, size_apply]
      cases e with
      | opened kind start =>
          rcases List.mem_cons.mp h with rfl | h
          · exact Nat.lt_succ_self _
          · exact Nat.lt_of_lt_of_le (ih h) (Nat.le_add_right ..)
      | closed stop => exact Nat.lt_of_lt_of_le (ih (List.mem_of_mem_tail h)) (Nat.le_add_right ..)
      | leaf kind span => exact Nat.lt_of_lt_of_le (ih h) (Nat.le_add_right ..)
      | unreadable span => exact Nat.lt_of_lt_of_le (ih h) (Nat.le_add_right ..)
      | markError => exact Nat.lt_of_lt_of_le (ih h) (Nat.le_add_right ..)

/-- The next id belongs to no open node. -/
theorem idAfter_not_mem_pending (root : Kind) (length : Nat) (events : List Event) :
    idAfter events ∉ (run root length events).pending :=
  fun h => Nat.lt_irrefl _ (lt_idAfter_of_mem_pending h)

/-- What there is after one of the events, and what the events after that one leave of it. -/
theorem run_keeps {pre : List Event} {e : Event} {id : Nat} {n : Node} (post : List Event)
    (hn : ((run root length pre).apply e).nodes[id]? = some n) :
    ∃ m, (run root length (pre ++ e :: post)).nodes[id]? = some m ∧ m.kind = n.kind ∧
      m.parent = n.parent ∧ (id ∉ ((run root length pre).apply e).pending → m.span = n.span) := by
  rw [run_append, List.foldl_cons]
  exact foldl_apply_old post hn

/-- A node goes below the innermost one that is open when it is added. -/
theorem run_parent (root : Kind) (length : Nat) (pre post : List Event) {e : Event}
    (hadds : e.adds = true) :
    ∃ n, (run root length (pre ++ e :: post)).nodes[idAfter pre]? = some n ∧
      n.parent = some ((run root length pre).pending.headD 0) := by
  obtain ⟨-, n, hn, hparent, -⟩ := (run root length pre).apply_adds hadds
  rw [size_run] at hn
  obtain ⟨m, hm, -, hparent', -⟩ := run_keeps post hn
  exact ⟨m, hm, hparent'.trans hparent⟩

/-- A childless node is never open, so its span stays. -/
theorem run_leaf {pre post : List Event} {e : Event} {kind : Kind} {span : Span}
    (hleaf : e.leaf? = some (kind, span)) (hadds : e.adds = true) :
    ∃ n, (run root length (pre ++ e :: post)).nodes[idAfter pre]? = some n ∧
      n.kind = kind ∧ n.span = span := by
  obtain ⟨-, n, hn, -, -, hshape⟩ := (run root length pre).apply_adds hadds
  obtain ⟨hkind, hspan⟩ := hshape kind span hleaf
  rw [size_run] at hn
  obtain ⟨m, hm, hkind', -, hspan'⟩ := run_keeps post hn
  have hnot : idAfter pre ∉ ((run root length pre).apply e).pending := by
    rw [pending_leaf hleaf]
    exact idAfter_not_mem_pending root length pre
  exact ⟨m, hm, hkind'.trans hkind, (hspan' hnot).trans hspan⟩

/-- Once a node is opened and complete events have passed, it is the innermost open one. -/
theorem run_open (root : Kind) (length : Nat) (pre : List Event) (kind : Kind) (start : Nat)
    {inner : List Event} (hinner : Complete inner) :
    (run root length (pre ++ .opened kind start :: inner)).pending =
        idAfter pre :: (run root length pre).pending ∧
      ∃ n, (run root length (pre ++ .opened kind start :: inner)).nodes[idAfter pre]? = some n ∧
        n.kind = kind ∧ n.span = ⟨start, start⟩ := by
  rw [run_append, List.foldl_cons, ← size_run root length pre]
  exact open_then (restores_complete hinner _)

/-- Closing takes a node off the open ones and sets its end for good. -/
theorem run_closed {pre inner post : List Event} {kind : Kind} {start stop : Nat}
    (hinner : Complete inner) :
    ∃ n, (run root length (pre ++ .opened kind start :: (inner ++ .closed stop :: post))).nodes[
        idAfter pre]? = some n ∧ n.kind = kind ∧ n.span = ⟨start, max stop start⟩ := by
  obtain ⟨hpending, n, hn, hkind, hspan⟩ := run_open root length pre kind start hinner
  have hend : ((run root length (pre ++ .opened kind start :: inner)).apply
      (.closed stop)).nodes[idAfter pre]? = some { n with span := ⟨start, max stop start⟩ } := by
    show (Draft.close _ stop).nodes[_]? = _
    rw [close_cons hpending hn]
    exact getElem?_modify_eq_some.mpr ⟨n, hn, by rw [if_pos rfl, hspan]⟩
  have hnot : idAfter pre ∉ ((run root length (pre ++ .opened kind start :: inner)).apply
      (.closed stop)).pending := by
    rw [pending_apply, hpending]
    exact idAfter_not_mem_pending root length pre
  obtain ⟨m, hm, hkind', -, hspan'⟩ := run_keeps post hend
  rw [List.append_assoc, List.cons_append] at hm
  exact ⟨m, hm, hkind'.trans hkind, hspan' hnot⟩

/-- **The table of a draft holds the nodes that its events describe.** -/
theorem records_run (root : Kind) (length : Nat) (events : List Event) :
    Records events (run root length events).nodes where
  size := size_run root length events
  leaf := by
    rintro pre e post kind span rfl hleaf hadds
    exact run_leaf hleaf hadds
  node := by
    rintro pre kind start inner stop post rfl hinner
    exact run_closed hinner
  parent := by
    rintro pre kind start inner e post rfl hinner hadds
    obtain ⟨n, hn, hparent⟩ :=
      run_parent root length (pre ++ .opened kind start :: inner) post hadds
    rw [(run_open root length pre kind start hinner).1, List.headD_cons] at hparent
    rw [List.append_assoc, List.cons_append] at hn
    exact ⟨n, hn, hparent⟩
  top := by
    rintro pre e post rfl hpre hadds
    obtain ⟨n, hn, hparent⟩ := run_parent root length pre post hadds
    have hpending : (run root length pre).pending = [] :=
      (restores_complete hpre (start root length)).1
    rw [hpending] at hparent
    exact ⟨n, hn, hparent⟩

end LogQL.Tree
