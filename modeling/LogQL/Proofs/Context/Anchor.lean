import LogQL.Context.Classify
import LogQL.Proofs.Text.Trailing
import LogQL.Proofs.Tree.Resolve

/-!
# Where the replacement begins

The text between the anchor of a context and the cursor is what a completion replaces. An anchor
comes from one of three places (`Anchored`): it is the cursor, the beginning of the word that ends
there, or the start of a node of the tree.

Only the last one may go wrong, since nothing ties the tree to the text: it may have been built for
another one. But a tree that was built gives the start of a node only for a node with a parent, so
not for the root, and every other node that is looked up is entered before the cursor.
-/

namespace LogQL.Context

open Text

/-- Where a rule may put the anchor. -/
inductive Anchored (r : Request) : Rule → Nat → Prop where
  | atCursor {rule : Rule} :
      rule = .treeLabelMatcher ∨ rule = .textLabelName ∨ rule = .textLabelValue →
      Anchored r rule r.place
  | atWord {rule : Rule} :
      rule = .treePipeline ∨ rule = .word → Anchored r rule (wordStart r.text r.place)
  | atNode {rule : Rule} {t : Tree} {id : Nat} {s : Tree.Span} :
      rule = .treeLabelMatcher ∨ rule = .treeLabelValue →
      r.tree = some t → t.span? id = some s → s.start < r.place → Anchored r rule s.start

variable {ctx : Context}

/-- A context that comes from the first source that has one comes from one of them. -/
theorem of_orElse {first second : Option Context} (h : (first <|> second) = some ctx) :
    first = some ctx ∨ second = some ctx := by
  cases first with
  | none => exact Or.inr h
  | some _ => exact Or.inl h

/-! ## From the text -/

theorem inSelector?_anchor {before line : List Char} {cursor : Nat}
    (h : inSelector? before line cursor = some ctx) :
    ctx.anchor = cursor ∧ (ctx.rule = .textLabelName ∨ ctx.rule = .textLabelValue) := by
  unfold inSelector? at h
  obtain ⟨inner, -, h⟩ := Option.bind_eq_some_iff.mp h
  dsimp only at h
  split at h
  · obtain rfl := Option.some.inj h
    exact ⟨rfl, Or.inl rfl⟩
  · obtain ⟨label, -, h⟩ := Option.bind_eq_some_iff.mp h
    obtain rfl := Option.some.inj h
    exact ⟨rfl, Or.inr rfl⟩

theorem onWord?_anchor {text : List Char} {cursor : Nat} {isExplicit : Bool}
    (h : onWord? text cursor isExplicit = some ctx) :
    ctx.anchor = wordStart text cursor ∧ ctx.rule = .word := by
  unfold onWord? at h
  dsimp only at h
  split at h
  · exact absurd h (by simp)
  · obtain rfl := Option.some.inj h
    exact ⟨rfl, rfl⟩

theorem anchored_of_textContext? {r : Request} (h : r.textContext? = some ctx) :
    Anchored r ctx.rule ctx.anchor := by
  unfold Request.textContext? ofText? at h
  rcases of_orElse h with h | h
  · obtain ⟨hanchor, hrule⟩ := inSelector?_anchor h
    rw [hanchor]
    exact .atCursor (Or.inr hrule)
  · obtain ⟨hanchor, hrule⟩ := onWord?_anchor h
    rw [hanchor]
    exact .atWord (Or.inr hrule)

/-! ## From the tree -/

variable {tree : Tree} {node : Nat}

/-- The anchor is the start of a node that has a parent. -/
def StartsBelow (tree : Tree) (node anchor : Nat) : Prop :=
  ∃ p s, tree.parent? node = some p ∧ tree.span? node = some s ∧ s.start = anchor

theorem onMatcher?_anchor {cursor : Nat} (h : onMatcher? tree node cursor = some ctx) :
    ctx.rule = .treeLabelMatcher ∧
      (ctx.anchor = cursor ∨ StartsBelow tree node ctx.anchor) := by
  unfold onMatcher? at h
  obtain ⟨kind, -, h⟩ := Option.bind_eq_some_iff.mp h
  split at h
  · obtain rfl := Option.some.inj h
    exact ⟨rfl, Or.inl rfl⟩
  split at h
  · obtain ⟨p, hp, h⟩ := Option.bind_eq_some_iff.mp h
    obtain ⟨parentKind, -, h⟩ := Option.bind_eq_some_iff.mp h
    obtain ⟨s, hs, h⟩ := Option.bind_eq_some_iff.mp h
    split at h
    · obtain rfl := Option.some.inj h
      exact ⟨rfl, Or.inr ⟨p, s, hp, hs, rfl⟩⟩
    · exact absurd h (by simp)
  · exact absurd h (by simp)

theorem inMatcherString?_anchor {text : List Char}
    (h : inMatcherString? tree text node = some ctx) :
    ctx.rule = .treeLabelValue ∧ StartsBelow tree node ctx.anchor := by
  unfold inMatcherString? at h
  obtain ⟨kind, -, h⟩ := Option.bind_eq_some_iff.mp h
  obtain ⟨sibling, -, h⟩ := Option.bind_eq_some_iff.mp h
  obtain ⟨before, -, h⟩ := Option.bind_eq_some_iff.mp h
  obtain ⟨p, hp, h⟩ := Option.bind_eq_some_iff.mp h
  obtain ⟨matcherKind, -, h⟩ := Option.bind_eq_some_iff.mp h
  split at h
  · obtain ⟨name, -, h⟩ := Option.bind_eq_some_iff.mp h
    obtain ⟨nameSpan, -, h⟩ := Option.bind_eq_some_iff.mp h
    obtain ⟨label, -, h⟩ := Option.bind_eq_some_iff.mp h
    obtain ⟨s, hs, h⟩ := Option.bind_eq_some_iff.mp h
    obtain rfl := Option.some.inj h
    exact ⟨rfl, p, s, hp, hs, rfl⟩
  · exact absurd h (by simp)

theorem inPipeline?_anchor {text : List Char} {cursor : Nat}
    (h : inPipeline? tree text node cursor = some ctx) :
    ctx.rule = .treePipeline ∧ ctx.anchor = wordStart text cursor := by
  unfold inPipeline? at h
  split at h
  · obtain rfl := Option.some.inj h
    exact ⟨rfl, rfl⟩
  · exact absurd h (by simp)

/-- **In a tree that was built, a node that gives an anchor starts before the cursor.** -/
theorem StartsBelow.lt {pos anchor : Nat} (hbuilt : tree.Built)
    (h : StartsBelow tree (tree.resolve pos .before) anchor) :
    ∃ s, tree.span? (tree.resolve pos .before) = some s ∧ s.start = anchor ∧ s.start < pos := by
  obtain ⟨p, s, hp, hs, hstart⟩ := h
  obtain ⟨s', hs', henters⟩ := hbuilt.entered_resolve hp
  obtain rfl : s = s' := Option.some.inj (hs.symm.trans hs')
  exact ⟨s, hs, hstart, (Tree.Side.enters_before_iff.mp henters).1⟩

theorem anchored_of_treeContext? {r : Request} (hbuilt : ∀ t, r.tree = some t → t.Built)
    (h : r.treeContext? = some ctx) : Anchored r ctx.rule ctx.anchor := by
  obtain ⟨t, ht, h⟩ := Option.bind_eq_some_iff.mp h
  have hnode : ∀ {rule : Rule} {anchor : Nat},
      rule = .treeLabelMatcher ∨ rule = .treeLabelValue →
      StartsBelow t (t.resolve r.place .before) anchor → Anchored r rule anchor := by
    intro rule anchor hrule hstarts
    obtain ⟨s, hs, rfl, hlt⟩ := hstarts.lt (hbuilt t ht)
    exact .atNode hrule ht hs hlt
  -- the three places are tried in order, so the answer comes from one of them
  unfold ofTree? at h
  dsimp only at h
  rcases of_orElse h with h | h
  · obtain ⟨hrule, hanchor⟩ := onMatcher?_anchor h
    rcases hanchor with hanchor | hstarts
    · rw [hanchor]
      exact .atCursor (Or.inl hrule)
    · exact hnode (Or.inl hrule) hstarts
  rcases of_orElse h with h | h
  · obtain ⟨hrule, hstarts⟩ := inMatcherString?_anchor h
    exact hnode (Or.inr hrule) hstarts
  · obtain ⟨hrule, hanchor⟩ := inPipeline?_anchor h
    rw [hanchor]
    exact .atWord (Or.inl hrule)

/-! ## The anchor of a request -/

theorem anchored_of_context? {r : Request} (hbuilt : ∀ t, r.tree = some t → t.Built)
    (h : r.context? = some ctx) : Anchored r ctx.rule ctx.anchor := by
  unfold Request.context? at h
  split at h
  · exact absurd h (by simp)
  rcases of_orElse h with h | h
  · exact anchored_of_treeContext? hbuilt h
  · exact anchored_of_textContext? h

/-- The ends of the tree's nodes fall between characters of the text, as far as it reaches. -/
def Aligned (t : Tree) (text : List Char) : Prop :=
  ∀ id s, t.span? id = some s → ∀ n, n = s.start ∨ n = s.stop → n ≤ byteLength text →
    IsBoundary text n

variable {r : Request} {rule : Rule} {anchor : Nat}

theorem isBoundary_place (r : Request) : IsBoundary r.text r.place := isBoundary_clamp ..

theorem place_le_byteLength (r : Request) : r.place ≤ byteLength r.text := clamp_le_byteLength ..

theorem Anchored.le_place (h : Anchored r rule anchor) : anchor ≤ r.place := by
  cases h with
  | atCursor _ => exact Nat.le_refl _
  | atWord _ =>
      have hle := wordStart_le r.text r.place
      rwa [show clamp r.text r.place = r.place from isBoundary_place r] at hle
  | atNode _ _ _ hlt => exact Nat.le_of_lt hlt

/-- An anchor that no node gives is a boundary, and so is one that an aligned tree gives. -/
theorem Anchored.isBoundary (h : Anchored r rule anchor)
    (hsafe : rule ≠ .treeLabelMatcher ∧ rule ≠ .treeLabelValue ∨
      ∀ t, r.tree = some t → Aligned t r.text) : IsBoundary r.text anchor := by
  cases h with
  | atCursor _ => exact isBoundary_place r
  | atWord _ => exact isBoundary_wordStart r.text r.place
  | @atNode t id s hrule ht hs hlt =>
      rcases hsafe with ⟨hm, hv⟩ | haligned
      · exact absurd hrule (not_or.mpr ⟨hm, hv⟩)
      · -- a start before the cursor is a start inside the text
        have hle := Nat.le_of_lt (Nat.lt_of_lt_of_le hlt (place_le_byteLength r))
        exact haligned t ht id s hs _ (Or.inl rfl) hle

theorem Anchored.slice?_word (h : Anchored r rule anchor)
    (hrule : rule = .treePipeline ∨ rule = .word) :
    slice? r.text anchor r.place = some (trailing isWord (upTo r.text r.place)) := by
  cases h with
  | atWord _ => exact slice?_wordStart (isBoundary_place r)
  | atCursor hother => rcases hrule with rfl | rfl <;> simp at hother
  | atNode hother => rcases hrule with rfl | rfl <;> simp at hother

/--
**The replaced text.** An anchor is where its rule may put it, and never passes the cursor, not even
when the tree was built for another text. It is a boundary unless a node of the tree gives it, and
what is replaced where a word is under way is that word. An anchor that a node of an aligned tree
gives is a boundary too, so there is a slice to replace.
-/
theorem anchor_bounds {r : Request} {ctx : Context}
    (hbuilt : ∀ t, r.tree = some t → t.Built) (h : r.context? = some ctx) :
    Anchored r ctx.rule ctx.anchor ∧
    ctx.anchor ≤ r.place ∧ r.place ≤ min r.cursor (byteLength r.text) ∧
    (ctx.rule ∈ [.textLabelName, .textLabelValue, .word, .treePipeline] →
      IsBoundary r.text ctx.anchor) ∧
    (ctx.rule ∈ [.word, .treePipeline] →
      ∃ w, slice? r.text ctx.anchor r.place = some w ∧ WordRun (upTo r.text r.place) w) ∧
    ((∀ t, r.tree = some t → Aligned t r.text) →
      IsBoundary r.text ctx.anchor ∧ ∃ w, slice? r.text ctx.anchor r.place = some w) := by
  have ha := anchored_of_context? hbuilt h
  refine ⟨ha, ha.le_place, Nat.le_min.mpr ⟨clamp_le .., place_le_byteLength r⟩, ?_, ?_, ?_⟩
  · intro hrule
    refine ha.isBoundary (Or.inl ⟨fun he => ?_, fun he => ?_⟩)
    · exact absurd hrule (by simp [he])
    · exact absurd hrule (by simp [he])
  · intro hrule
    refine ⟨_, ha.slice?_word ?_, wordRun_iff.mpr rfl⟩
    simpa [or_comm] using hrule
  · intro haligned
    have hb := ha.isBoundary (Or.inr haligned)
    exact ⟨hb, exists_slice? ha.le_place hb (isBoundary_place r)⟩

/-- The events of a selector that has since been cut short. -/
def staleEvents : List Tree.Event :=
  [.opened .selector 0, .opened .labelMatcher 1, .leaf .labelName ⟨1, 4⟩, .leaf .operator ⟨4, 5⟩,
    .leaf .string ⟨5, 10⟩, .closed 10, .closed 11]

/-- The tree that they made. -/
def staleTree : Tree := ⟨(Tree.Draft.run (.other "LogQL") 18 staleEvents).nodes, 0⟩

/-- A request in what is left of it, with a letter of two bytes in the string. -/
def staleRequest : Request := ⟨"\x7bjob=\"ä".toList, 40, some staleTree, false⟩

/-- The string of the matcher gives the anchor, and it reaches past the end of the text. -/
theorem anchor_bounds_stale :
    staleTree.Built ∧ Aligned staleTree staleRequest.text ∧
      staleRequest.context? = some ⟨.labelValue "job" .single, 5, .treeLabelValue⟩ ∧
      5 ≤ staleRequest.place ∧ ∃ w, slice? staleRequest.text 5 staleRequest.place = some w := by
  have hbuilt : staleTree.Built := ⟨.other "LogQL", 18, staleEvents, rfl⟩
  have haligned : Aligned staleTree staleRequest.text := by
    have hall : ∀ n ∈ staleTree.nodes.toList, ∀ k ∈ [n.span.start, n.span.stop],
        k ≤ byteLength staleRequest.text → IsBoundary staleRequest.text k := by decide
    intro id s hs k hk hle
    obtain ⟨n, hn, rfl⟩ := Tree.span?_eq_some_iff.mp hs
    exact hall n (Array.mem_toList_iff.mpr (Array.mem_of_getElem? hn)) k (by simpa using hk) hle
  have hctx : staleRequest.context? = some ⟨.labelValue "job" .single, 5, .treeLabelValue⟩ := by
    decide
  have hone : ∀ {P : Tree → Prop}, P staleTree → ∀ t, staleRequest.tree = some t → P t :=
    fun h _ ht => Option.some.inj ht ▸ h
  obtain ⟨-, hle, -, -, -, hslice⟩ := anchor_bounds (hone hbuilt) hctx
  exact ⟨hbuilt, haligned, hctx, hle, (hslice (hone haligned)).2⟩

end LogQL.Context
