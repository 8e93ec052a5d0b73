import LogQL.Proofs.Context.Anchor
import LogQL.Proofs.Tree.CreationOrder

/-!
# What the tree around a cursor calls for

A tree is asked at one node, the one that a look-up finds, and along the way up from it. Where
children lie apart that node is the innermost one, and all other nodes around the cursor are above
it. So nothing is missed: `TreeShows` says by the nodes around the cursor alone what a tree answers,
and never mentions a look-up.

A pipeline around the cursor is above the innermost node, however deep that is, so a cursor in a
pipeline has an answer from the tree whenever the rules for matchers have none: no rule fails for
good. The other way round, only the root can be a pipeline on the way up without being around the
cursor.
-/

namespace LogQL.Context

open Text
open LogQL.Tree (Innermost WellFormed Above)

variable {t : Tree} {length cursor node : Nat} {text : List Char} {ctx : Context}

/-! ## The three places -/

/-- The cursor is on a matcher, or on the name of one, and this is where the name begins. -/
inductive OnMatcher (t : Tree) (cursor : Nat) : (anchor : Nat) → Prop where
  | matcher {id : Nat} :
      Innermost t .before cursor id → t.kind? id = some .labelMatcher → OnMatcher t cursor cursor
  | name {id parent : Nat} {s : Tree.Span} :
      Innermost t .before cursor id → t.kind? id = some .labelName →
      t.parent? id = some parent → t.kind? parent = some .labelMatcher →
      t.span? id = some s → OnMatcher t cursor s.start

/-- The first name of a matcher covers this text. -/
def NamedAs (t : Tree) (text : List Char) (matcher : Nat) (label : List Char) : Prop :=
  ∃ name front rest s, t.children matcher = front ++ name :: rest ∧
    t.kind? name = some .labelName ∧ (∀ child ∈ front, t.kind? child ≠ some .labelName) ∧
    t.span? name = some s ∧ s.slice? text = some label

/-- The cursor is in a string of a matcher around it, right after an operator. -/
structure InString (t : Tree) (text : List Char) (cursor matcher string : Nat)
    (label : List Char) : Prop where
  matcher_entered : t.Entered .before cursor matcher
  matcher_kind : t.kind? matcher = some .labelMatcher
  string_entered : t.Entered .before cursor string
  string_kind : t.kind? string = some .string
  innermost : Innermost t .before cursor string
  after_operator : ∃ operator front rest,
    t.children matcher = front ++ operator :: string :: rest ∧ t.kind? operator = some .operator
  named : NamedAs t text matcher label

/-- A pipeline is around the cursor, or is all of the tree. -/
def InPipeline (t : Tree) (cursor : Nat) : Prop :=
  ∃ id, t.kind? id = some .pipeline ∧ (id = t.root ∨ t.Entered .before cursor id)

/-- The answer that the tree calls for at the cursor. -/
inductive TreeShows (t : Tree) (text : List Char) (cursor : Nat) : Option Context → Prop where
  | name {anchor : Nat} :
      OnMatcher t cursor anchor →
      TreeShows t text cursor (some ⟨.labelName, anchor, .treeLabelMatcher⟩)
  | value {matcher string : Nat} {label : List Char} {s : Tree.Span} :
      InString t text cursor matcher string label → t.span? string = some s →
      TreeShows t text cursor
        (some ⟨.labelValue (String.ofList label) .single, s.start, .treeLabelValue⟩)
  | stage {run : List Char} :
      (∀ anchor, ¬ OnMatcher t cursor anchor) →
      (∀ matcher string label, ¬ InString t text cursor matcher string label) →
      InPipeline t cursor → WordRun (upTo text cursor) run →
      TreeShows t text cursor
        (some ⟨.wordOf Vocabulary.stages, cursor - byteLength run, .treePipeline⟩)
  | nothing :
      (∀ anchor, ¬ OnMatcher t cursor anchor) →
      (∀ matcher string label, ¬ InString t text cursor matcher string label) →
      ¬ InPipeline t cursor → TreeShows t text cursor none

/-! ## Neighbours and children -/

theorem size_of_kind? {id : Nat} {kind : Tree.Kind} (h : t.kind? id = some kind) :
    id < t.nodes.size := by
  obtain ⟨n, hn, -⟩ := Option.map_eq_some_iff.mp h
  exact Tree.lt_size_of_node? hn

/-- A node is listed once. -/
theorem not_mem_of_split (hw : WellFormed length t) {id parent : Nat} {earlier later : List Nat}
    (hsplit : t.children parent = earlier ++ id :: later) : id ∉ earlier := by
  intro hmem
  have hcount := hw.count_children id parent
  rw [hsplit, List.count_append, List.count_cons_self] at hcount
  have hpos := List.count_pos_iff.mpr hmem
  split at hcount <;> omega

/-- The neighbour of a node is the one listed before it. -/
theorem prevSibling?_eq_some_iff (hw : WellFormed length t) {id parent before : Nat}
    (hparent : t.parent? id = some parent) :
    t.prevSibling? id = some before ↔
      ∃ front rest, t.children parent = front ++ before :: id :: rest := by
  constructor
  · intro h
    obtain ⟨earlier, later, hsplit⟩ := List.append_of_mem (hw.mem_children_iff.mpr hparent)
    rw [Tree.prevSibling?_eq hparent hsplit (not_mem_of_split hw hsplit)] at h
    obtain ⟨front, rfl⟩ := List.getLast?_eq_some_iff.mp h
    exact ⟨front, later, by rw [hsplit, List.append_assoc, List.singleton_append]⟩
  · rintro ⟨front, rest, he⟩
    have hsplit : t.children parent = (front ++ [before]) ++ id :: rest := by
      rw [he, List.append_assoc, List.singleton_append]
    rw [Tree.prevSibling?_eq hparent hsplit (not_mem_of_split hw hsplit), List.getLast?_concat]

theorem childOfKind?_eq_some_iff {parent child : Nat} {kind : Tree.Kind} :
    t.childOfKind? parent kind = some child ↔
      ∃ front rest, t.children parent = front ++ child :: rest ∧ t.kind? child = some kind ∧
        ∀ other ∈ front, t.kind? other ≠ some kind := by
  unfold Tree.childOfKind?
  rw [List.find?_eq_some_iff_append]
  constructor
  · rintro ⟨hkind, front, rest, hsplit, hfront⟩
    refine ⟨front, rest, hsplit, beq_iff_eq.mp hkind, fun other ho => ?_⟩
    simpa using hfront other ho
  · rintro ⟨front, rest, hsplit, hkind, hfront⟩
    refine ⟨beq_iff_eq.mpr hkind, front, rest, hsplit, fun other ho => ?_⟩
    simpa using hfront other ho

/-! ## The rules, one by one -/

/-- What the rules about a matcher say is said of the one node that is innermost. -/
theorem onMatcher?_eq_some_iff (hw : WellFormed length t)
    (hinner : Innermost t .before cursor node) :
    onMatcher? t node cursor = some ctx ↔
      ∃ anchor, OnMatcher t cursor anchor ∧ ctx = ⟨.labelName, anchor, .treeLabelMatcher⟩ := by
  constructor
  · intro h
    unfold onMatcher? at h
    obtain ⟨kind, hkind, h⟩ := Option.bind_eq_some_iff.mp h
    split at h
    · rename_i hmatcher
      rw [hmatcher] at hkind
      exact ⟨cursor, .matcher hinner hkind, (Option.some.inj h).symm⟩
    split at h
    · rename_i hname
      rw [hname] at hkind
      obtain ⟨parent, hparent, h⟩ := Option.bind_eq_some_iff.mp h
      obtain ⟨parentKind, hparentKind, h⟩ := Option.bind_eq_some_iff.mp h
      obtain ⟨s, hs, h⟩ := Option.bind_eq_some_iff.mp h
      split at h
      · rename_i hmatcher
        rw [hmatcher] at hparentKind
        exact ⟨s.start, .name hinner hkind hparent hparentKind hs, (Option.some.inj h).symm⟩
      · exact absurd h (by simp)
    · exact absurd h (by simp)
  · rintro ⟨anchor, hon, rfl⟩
    unfold onMatcher?
    cases hon with
    | @matcher id hid hkind =>
        obtain rfl := hid.unique hw hinner
        rw [hkind]
        rfl
    | @name id parent s hid hkind hparent hparentKind hs =>
        obtain rfl := hid.unique hw hinner
        rw [hkind, hparent, hs]
        simp [hparentKind]

theorem inMatcherString?_eq_some_iff (hw : WellFormed length t)
    (hinner : Innermost t .before cursor node) :
    inMatcherString? t text node = some ctx ↔
      ∃ matcher string label s, InString t text cursor matcher string label ∧
        t.span? string = some s ∧
        ctx = ⟨.labelValue (String.ofList label) .single, s.start, .treeLabelValue⟩ := by
  constructor
  · intro h
    unfold inMatcherString? at h
    obtain ⟨kind, hkind, h⟩ := Option.bind_eq_some_iff.mp h
    obtain ⟨operator, hprev, h⟩ := Option.bind_eq_some_iff.mp h
    obtain ⟨operatorKind, hoperator, h⟩ := Option.bind_eq_some_iff.mp h
    obtain ⟨matcher, hparent, h⟩ := Option.bind_eq_some_iff.mp h
    obtain ⟨matcherKind, hmatcher, h⟩ := Option.bind_eq_some_iff.mp h
    split at h
    · rename_i hkinds
      rw [hkinds.1] at hkind
      rw [hkinds.2.1] at hoperator
      rw [hkinds.2.2] at hmatcher
      obtain ⟨name, hname, h⟩ := Option.bind_eq_some_iff.mp h
      obtain ⟨nameSpan, hnameSpan, h⟩ := Option.bind_eq_some_iff.mp h
      obtain ⟨label, hlabel, h⟩ := Option.bind_eq_some_iff.mp h
      obtain ⟨s, hs, h⟩ := Option.bind_eq_some_iff.mp h
      obtain ⟨front, rest, hsplit, hnameKind, hfront⟩ := childOfKind?_eq_some_iff.mp hname
      -- a node with a parent is not the root, so the cursor is inside it
      have hentered : t.Entered .before cursor node := by
        rcases hinner.covers with hroot | hentered
        · rw [hroot, hw.root.1, hw.root.2.2] at hparent
          exact absurd hparent (by simp)
        · exact hentered
      refine ⟨matcher, node, label, s, ?_, hs, (Option.some.inj h).symm⟩
      exact {
        matcher_entered := hw.entered_above (Relation.ReflTransGen.single hparent) hentered
        matcher_kind := hmatcher
        string_entered := hentered
        string_kind := hkind
        innermost := hinner
        after_operator := by
          obtain ⟨front', rest', hsplit'⟩ := (prevSibling?_eq_some_iff hw hparent).mp hprev
          exact ⟨operator, front', rest', hsplit', hoperator⟩
        named := ⟨name, front, rest, nameSpan, hsplit, hnameKind, hfront, hnameSpan, hlabel⟩ }
    · exact absurd h (by simp)
  · rintro ⟨matcher, string, label, s, hin, hs, rfl⟩
    obtain rfl := hin.innermost.unique hw hinner
    obtain ⟨operator, front, rest, hsplit, hoperator⟩ := hin.after_operator
    obtain ⟨name, front', rest', nameSpan, hsplit', hnameKind, hfront, hnameSpan, hlabel⟩ :=
      hin.named
    have hparent : t.parent? string = some matcher :=
      hw.mem_children_iff.mp (by rw [hsplit]; simp)
    have hprev := (prevSibling?_eq_some_iff hw hparent).mpr ⟨front, rest, hsplit⟩
    have hname := childOfKind?_eq_some_iff.mpr ⟨front', rest', hsplit', hnameKind, hfront⟩
    unfold inMatcherString?
    rw [hin.string_kind, hprev, hparent, hs]
    simp [hoperator, hin.matcher_kind, hname, hnameSpan, hlabel]

/-- **What is around the cursor is above the innermost node**, the root included. -/
theorem above_iff (hw : WellFormed length t) (hinner : Innermost t .before cursor node) {id : Nat}
    (hid : id < t.nodes.size) :
    Above t node id ↔ id = t.root ∨ t.Entered .before cursor id := by
  constructor
  · intro ha
    rcases hinner.covers with hroot | hentered
    · rw [hroot] at ha
      exact Or.inl (hw.eq_root_of_above ha)
    · exact Or.inr (hw.entered_above ha hentered)
  · rintro (rfl | hentered)
    · rcases hinner.covers with hroot | ⟨s, hs, -⟩
      · rw [hroot]
        exact Relation.ReflTransGen.refl
      · exact hw.above_root (Tree.size_of_span? hs)
    · exact hinner.least id hentered

theorem any_pipeline_iff (hw : WellFormed length t) (hinner : Innermost t .before cursor node)
    (hnode : node < t.nodes.size) :
    (t.ancestors node).any (t.kind? · == some .pipeline) = true ↔ InPipeline t cursor := by
  rw [List.any_eq_true]
  unfold InPipeline
  constructor
  · rintro ⟨id, hmem, hkind⟩
    have hkind := beq_iff_eq.mp hkind
    have ha := (hw.mem_ancestors_iff hnode).mp hmem
    exact ⟨id, hkind, (above_iff hw hinner (size_of_kind? hkind)).mp ha⟩
  · rintro ⟨id, hkind, haround⟩
    have ha := (above_iff hw hinner (size_of_kind? hkind)).mpr haround
    exact ⟨id, (hw.mem_ancestors_iff hnode).mpr ha, beq_iff_eq.mpr hkind⟩

theorem inPipeline?_eq (hw : WellFormed length t) (hinner : Innermost t .before cursor node)
    (hnode : node < t.nodes.size) (hc : IsBoundary text cursor) {run : List Char}
    (hrun : WordRun (upTo text cursor) run) (hin : InPipeline t cursor) :
    inPipeline? t text node cursor =
      some ⟨.wordOf Vocabulary.stages, cursor - byteLength run, .treePipeline⟩ := by
  rw [inPipeline?, if_pos ((any_pipeline_iff hw hinner hnode).mpr hin), wordStart_eq_sub hc hrun]

/-! ## The answer -/

/-- Some rule always applies. -/
theorem treeShows_total (t : Tree) (text : List Char) (cursor : Nat) :
    ∃ answer, TreeShows t text cursor answer := by
  have hrun := wordRun_iff.mpr (rfl : trailing isWord (upTo text cursor) = _)
  by_cases hn : ∃ anchor, OnMatcher t cursor anchor
  · obtain ⟨anchor, hn⟩ := hn
    exact ⟨_, .name hn⟩
  by_cases hv : ∃ matcher string label, InString t text cursor matcher string label
  · obtain ⟨matcher, string, label, hv⟩ := hv
    obtain ⟨s, hs⟩ := Tree.exists_span? (size_of_kind? hv.string_kind)
    exact ⟨_, .value hv hs⟩
  have hn := not_exists.mp hn
  have hv : ∀ matcher string label, ¬ InString t text cursor matcher string label :=
    fun matcher string label h => hv ⟨matcher, string, label, h⟩
  by_cases hp : InPipeline t cursor
  · exact ⟨_, .stage hn hv hp hrun⟩
  · exact ⟨_, .nothing hn hv hp⟩

/-- A rule that finds nothing leaves the cursor to the next one. -/
theorem onMatcher?_eq_none (hw : WellFormed length t) (hinner : Innermost t .before cursor node)
    (h : ∀ anchor, ¬ OnMatcher t cursor anchor) : onMatcher? t node cursor = none := by
  cases hfound : onMatcher? t node cursor with
  | none => rfl
  | some ctx =>
      obtain ⟨anchor, hon, -⟩ := (onMatcher?_eq_some_iff hw hinner).mp hfound
      exact absurd hon (h anchor)

theorem inMatcherString?_eq_none (hw : WellFormed length t)
    (hinner : Innermost t .before cursor node)
    (h : ∀ matcher string label, ¬ InString t text cursor matcher string label) :
    inMatcherString? t text node = none := by
  cases hfound : inMatcherString? t text node with
  | none => rfl
  | some ctx =>
      obtain ⟨matcher, string, label, s, hin, -⟩ :=
        (inMatcherString?_eq_some_iff hw hinner).mp hfound
      exact absurd hin (h matcher string label)

/-- A string is no matcher and no name of one. -/
theorem InString.not_onMatcher (hw : WellFormed length t) {matcher string : Nat}
    {label : List Char} (h : InString t text cursor matcher string label) (anchor : Nat) :
    ¬ OnMatcher t cursor anchor := by
  intro hon
  -- either way the innermost node would be of two kinds
  cases hon with
  | matcher hinner hkind =>
      rw [hinner.unique hw h.innermost, h.string_kind] at hkind
      exact absurd hkind (by decide)
  | name hinner hkind hparent hparentKind hs =>
      rw [hinner.unique hw h.innermost, h.string_kind] at hkind
      exact absurd hkind (by decide)

/-- The answer that a tree shows is the one that is computed. -/
theorem ofTree?_of_treeShows (hw : WellFormed length t) (hapart : t.Apart)
    (hc : IsBoundary text cursor) {answer : Option Context}
    (h : TreeShows t text cursor answer) : ofTree? t text cursor = answer := by
  have hinner : Innermost t .before cursor (t.resolve cursor .before) :=
    hapart.innermost_resolve hw (by decide)
  have hnode := hw.resolve_lt cursor .before
  unfold ofTree?
  dsimp only
  cases h with
  | name hon =>
      rw [(onMatcher?_eq_some_iff hw hinner).mpr ⟨_, hon, rfl⟩]
      rfl
  | value hin hs =>
      rw [onMatcher?_eq_none hw hinner (hin.not_onMatcher hw),
        (inMatcherString?_eq_some_iff hw hinner).mpr ⟨_, _, _, _, hin, hs, rfl⟩]
      rfl
  | stage hn hv hp hrun =>
      rw [onMatcher?_eq_none hw hinner hn, inMatcherString?_eq_none hw hinner hv,
        inPipeline?_eq hw hinner hnode hc hrun hp]
      rfl
  | nothing hn hv hp =>
      rw [onMatcher?_eq_none hw hinner hn, inMatcherString?_eq_none hw hinner hv, inPipeline?,
        if_neg (fun hany => hp ((any_pipeline_iff hw hinner hnode).mp hany))]
      rfl

/-- The rules that ask a tree. -/
def treeRules : List Rule := [.treeLabelMatcher, .treeLabelValue, .treePipeline]

/-- What the text shows is shown by a rule that asks no tree. -/
theorem rule_of_textContext? {r : Request} (h : r.textContext? = some ctx) :
    ctx.rule ∉ treeRules := by
  unfold Request.textContext? ofText? at h
  rcases of_orElse h with h | h
  · obtain ⟨-, hrule | hrule⟩ := inSelector?_anchor h
    · rw [hrule]
      decide
    · rw [hrule]
      decide
  · rw [(onWord?_anchor h).2]
    decide

/-- What a tree shows is shown by a rule that asks it, and by which one says where the cursor is. -/
theorem TreeShows.rule_cases (h : TreeShows t text cursor (some ctx)) :
    ctx.rule ∈ treeRules ∧
    (ctx.rule = .treePipeline → InPipeline t cursor) ∧
    (ctx.rule = .treeLabelValue → ∃ matcher string label,
      InString t text cursor matcher string label ∧
      ctx.intent = .labelValue (String.ofList label) .single) := by
  cases h with
  | name hon => exact ⟨by simp [treeRules], by simp, by simp⟩
  | value hin hs => exact ⟨by simp [treeRules], by simp, fun _ => ⟨_, _, _, hin, rfl⟩⟩
  | stage hn hv hp hrun => exact ⟨by simp [treeRules], fun _ => hp, by simp⟩

/-- A cursor in a pipeline has an answer from the tree. -/
theorem TreeShows.isSome_of_inPipeline {answer : Option Context}
    (h : TreeShows t text cursor answer) (hp : InPipeline t cursor) : ∃ ctx, answer = some ctx := by
  cases h with
  | name hon => exact ⟨_, rfl⟩
  | value hin hs => exact ⟨_, rfl⟩
  | stage hn hv hp' hrun => exact ⟨_, rfl⟩
  | nothing hn hv hnot => exact absurd hp hnot

/--
**What a tree answers is said by the nodes around the cursor.** In a tree whose children lie apart
the answer is the one that `TreeShows` gives. So no place in a pipeline is left to the text, however
deep the cursor is in it and however the rules for matchers fail. The other way round, a
request answered by the rule for pipelines has one around its cursor or all of its tree is one, and
one answered by the rule for values has its cursor in the string after an operator of a matcher,
and asks for the values of what the matcher names first.
-/
theorem treeContext?_iff_treeShows {r : Request} {t : Tree} (hbuilt : t.Built) (hapart : t.Apart)
    (htree : r.tree = some t) (hne : r.text ≠ []) :
    (∀ answer, r.treeContext? = answer ↔ TreeShows t r.text r.place answer) ∧
    (∀ id, t.kind? id = some .pipeline → t.Entered .before r.place id →
      ∃ ctx, r.context? = some ctx ∧ ctx.rule ∈ treeRules) ∧
    ∀ ctx, r.context? = some ctx →
      (ctx.rule = .treePipeline → InPipeline t r.place) ∧
      (ctx.rule = .treeLabelValue → ∃ matcher string label,
        InString t r.text r.place matcher string label ∧
        ctx.intent = .labelValue (String.ofList label) .single) := by
  obtain ⟨root, length, events, hevents⟩ := hbuilt
  have hw := Tree.wellFormed_of_ofEvents hevents
  have hcomputed : ∀ {answer}, TreeShows t r.text r.place answer → r.treeContext? = answer := by
    intro answer h
    rw [Request.treeContext?, htree]
    exact ofTree?_of_treeShows hw hapart (isBoundary_place r) h
  have hshows : TreeShows t r.text r.place r.treeContext? := by
    obtain ⟨answer, h⟩ := treeShows_total t r.text r.place
    rw [hcomputed h]
    exact h
  have hcontext : r.context? = (r.treeContext? <|> r.textContext?) :=
    if_neg (by simpa using hne)
  refine ⟨fun answer => ⟨fun h => h ▸ hshows, hcomputed⟩, ?_, ?_⟩
  · intro id hkind hentered
    obtain ⟨ctx, hctx⟩ := hshows.isSome_of_inPipeline ⟨id, hkind, Or.inr hentered⟩
    rw [hctx] at hshows
    refine ⟨ctx, ?_, hshows.rule_cases.1⟩
    rw [hcontext, hctx]
    rfl
  · intro ctx h
    rw [hcontext] at h
    rcases of_orElse h with h | h
    · rw [h] at hshows
      exact hshows.rule_cases.2
    · -- the text is never the one to speak of pipelines or of the strings of matchers
      have hrule := rule_of_textContext? h
      refine ⟨fun he => absurd ?_ hrule, fun he => absurd ?_ hrule⟩
      · simp [he, treeRules]
      · simp [he, treeRules]

/-- The events of a stage with a matcher that has lost its name. -/
def namelessEvents : List Tree.Event :=
  [.opened .selector 0, .closed 2, .opened .pipeline 3, .leaf (.other "Pipe") ⟨3, 4⟩,
    .opened .labelMatcher 5, .leaf .operator ⟨5, 6⟩, .leaf .string ⟨6, 10⟩, .closed 10,
    .closed 10]

/-- The tree that they make. -/
def namelessTree : Tree := ⟨(Tree.Draft.run (.other "LogQL") 10 namelessEvents).nodes, 0⟩

/-- A request with its cursor in the string of that matcher. -/
def namelessRequest : Request := ⟨"\x7b\x7d | =\"ab\"".toList, 8, some namelessTree, false⟩

/-- The matcher names no label to offer values of, and the pipeline around it answers. -/
theorem treeShows_nameless_matcher :
    namelessTree.Built ∧ namelessTree.Apart ∧ namelessRequest.text ≠ [] ∧
      namelessTree.Entered .before namelessRequest.place 2 ∧
      TreeShows namelessTree namelessRequest.text namelessRequest.place
        (some ⟨.wordOf Vocabulary.stages, 7, .treePipeline⟩) ∧
      ∃ ctx, namelessRequest.context? = some ctx ∧ ctx.rule ∈ treeRules := by
  have hbuilt : namelessTree.Built := ⟨.other "LogQL", 10, namelessEvents, rfl⟩
  have hapart : namelessTree.Apart := by decide
  have hne : namelessRequest.text ≠ [] := by decide
  have hentered : namelessTree.Entered .before namelessRequest.place 2 :=
    ⟨⟨3, 10⟩, by decide, by decide⟩
  have hcomputed : namelessRequest.treeContext? =
      some ⟨.wordOf Vocabulary.stages, 7, .treePipeline⟩ := by decide
  obtain ⟨hiff, hcaught, -⟩ :=
    treeContext?_iff_treeShows (r := namelessRequest) hbuilt hapart rfl hne
  exact ⟨hbuilt, hapart, hne, hentered, (hiff _).mp hcomputed, hcaught 2 (by decide) hentered⟩

end LogQL.Context
