import LogQL.Proofs.Context.TextRules
import LogQL.Proofs.Text.Checked
import LogQL.Proofs.Tree.Acyclic

/-!
# Classifying a request, step by step

The context of a cursor, with the loops and slices of `Text.Checked` in place of cuts and with walks
that have no bound. `none` is a run in which a check fails or a walk does not end. On a tree without
a cycle there is no such run, and what comes out is the context (`context_eq`).

The text between braces can be cut off because a brace takes one byte, and the name before an equals
sign because a match begins and ends at characters. Only the offset of the cursor is ever used to
cut the text; what a tree says about its spans is at most looked up, and refused if it does not fit.
-/

namespace LogQL.Checked

open Context (Assigns)

variable {text before line : List Char} {cursor : Nat}

/-! ## A name before an equals sign -/

/-- All of the text is a word and an equals sign. -/
def isAssignment (text : List Char) : Bool :=
  text.getLast? == some '=' && !text.dropLast.isEmpty && text.dropLast.all Text.isWord

/-- Where the leftmost word begins and ends that is followed by an equals sign and the end of the
text. The text itself begins at `start`. -/
def labelSpan? : (start : Nat) → List Char → Option (Nat × Nat)
  | _, [] => none
  | start, c :: cs =>
    if isAssignment (c :: cs) then some (start, start + Text.byteLength (c :: cs).dropLast)
    else labelSpan? (start + c.utf8Size) cs

theorem isAssignment_concat (word : List Char) :
    isAssignment (word ++ ['=']) = (!word.isEmpty && word.all Text.isWord) := by
  simp [isAssignment]

theorem labelSpan?_of_isAssignment {text : List Char} (start : Nat) (h : isAssignment text = true) :
    labelSpan? start text = some (start, start + Text.byteLength text.dropLast) := by
  cases text with
  | nil => exact absurd h (by decide)
  | cons c cs => rw [labelSpan?, if_pos h]

/-- **The name before a final equals sign is found**, with where it begins and ends. -/
theorem labelSpan?_append {pre label : List Char} (start : Nat) (hne : label ≠ [])
    (hword : ∀ c ∈ label, Text.isWord c = true)
    (hpre : ∀ c, pre.getLast? = some c → Text.isWord c = false) :
    labelSpan? start (pre ++ (label ++ ['='])) =
      some (start + Text.byteLength pre,
        start + Text.byteLength pre + Text.byteLength label) := by
  induction pre generalizing start with
  | nil =>
      have hassign : isAssignment (label ++ ['=']) = true := by
        rw [isAssignment_concat]
        simpa [hne] using hword
      rw [List.nil_append, labelSpan?_of_isAssignment start hassign, List.dropLast_concat]
      rfl
  | cons x pre ih =>
      -- what stands before the name ends in a character that is not part of a word
      have hassign : ¬isAssignment (x :: (pre ++ (label ++ ['=']))) = true := by
        have hlast := hpre _ (List.getLast?_eq_some_getLast (List.cons_ne_nil x pre))
        have hmem := List.getLast_mem (List.cons_ne_nil x pre)
        intro h
        have hall : x :: (pre ++ (label ++ ['='])) = (x :: pre ++ label) ++ ['='] := by simp
        rw [hall, isAssignment_concat, Bool.and_eq_true, List.all_eq_true] at h
        exact absurd (h.2 _ (List.mem_append_left _ hmem)) (by rw [hlast]; decide)
      have hpre' : ∀ c, pre.getLast? = some c → Text.isWord c = false := by
        intro c hc
        refine hpre c ?_
        rw [List.getLast?_cons, hc]
        rfl
      rw [List.cons_append, labelSpan?, if_neg hassign, ih _ hpre', Text.byteLength]
      simp only [Nat.add_assoc]

/-- Where something is found, the text ends in a word and an equals sign. -/
theorem suffix_of_labelSpan? {start : Nat} {span : Nat × Nat}
    (h : labelSpan? start line = some span) :
    ∃ word, word ≠ [] ∧ (∀ c ∈ word, Text.isWord c = true) ∧ word ++ ['='] <:+ line := by
  induction line generalizing start with
  | nil => exact absurd h (by simp [labelSpan?])
  | cons c cs ih =>
      rw [labelSpan?] at h
      split at h
      · rename_i hassign
        rw [isAssignment, Bool.and_eq_true, Bool.and_eq_true, beq_iff_eq] at hassign
        obtain ⟨⟨hlast, hne⟩, hword⟩ := hassign
        obtain ⟨word, hline⟩ := List.getLast?_eq_some_iff.mp hlast
        rw [hline, List.dropLast_concat] at hne hword
        exact ⟨word, by simpa using hne, by simpa using hword, by rw [hline]⟩
      · obtain ⟨word, hne, hword, hsuffix⟩ := ih h
        exact ⟨word, hne, hword, hsuffix.trans (List.suffix_cons c cs)⟩

theorem labelSpan?_eq_none (start : Nat) (h : ∀ label, ¬Assigns line label) :
    labelSpan? start line = none := by
  by_contra hsome
  obtain ⟨span, hspan⟩ := Option.ne_none_iff_exists'.mp hsome
  obtain ⟨word, hne, hword, pre, hline⟩ := suffix_of_labelSpan? hspan
  -- the word that ends the text before the sign is at least as long as the one found
  refine h _ ⟨?_, pre ++ word, by rw [← hline, List.append_assoc], Text.wordRun_iff.mpr rfl⟩
  intro hnil
  have hsplit := Text.dropTrailing_append_trailing Text.isWord (pre ++ word)
  rw [hnil, List.append_nil] at hsplit
  have hlast : (Text.dropTrailing Text.isWord (pre ++ word)).getLast? =
      some (word.getLast hne) := by
    rw [hsplit, List.getLast?_append_of_ne_nil _ hne, List.getLast?_eq_some_getLast hne]
  have hstop := Text.getLast?_dropTrailing hlast
  rw [hword _ (List.getLast_mem hne)] at hstop
  exact absurd hstop (by decide)

/-! ## The text before a cursor -/

/-- An answer, or else the outcome of another run. -/
def orTry {α : Type} (answer : Option α) (run : Option (Option α)) : Option (Option α) :=
  match answer with
  | some a => some (some a)
  | none => run

theorem orTry_some {α : Type} (answer other : Option α) :
    orTry answer (some other) = some (answer <|> other) := by
  cases answer <;> rfl

/-- A label name or value is due inside an open brace. -/
def inSelector (before line : List Char) (cursor : Nat) : Option (Option Context) :=
  match lastOf '{' before with
  | none => some none
  | some opening =>
    if (lastOf '}' before).any (opening < ·) then some none
    else do
      let inner ← slice before (opening + 1) (Text.byteLength before)
      let last := (Text.trim line).getLast?
      if !inner.contains '=' ∨ last = some ',' ∨ last = some '{' then
        return some ⟨.labelName, cursor, .textLabelName⟩
      else
        match labelSpan? 0 line with
        | none => return none
        | some (start, stop) => do
          let label ← slice line start stop
          return some ⟨.labelValue (String.ofList label) .double, cursor, .textLabelValue⟩

/-- A word ends at the cursor, or the user asked on a blank spot. -/
def onWord (text : List Char) (cursor : Nat) (isExplicit : Bool) : Option (Option Context) := do
  let start ← wordStart (Text.bytes text) cursor
  if start = cursor ∧ !isExplicit then return none else return some ⟨.anyWord, start, .word⟩

/-- The context that the text shows. -/
def ofText (text : List Char) (cursor : Nat) (isExplicit : Bool) : Option (Option Context) := do
  let before ← slice text 0 cursor
  let line ← lineBefore text cursor
  let inside ← inSelector before line cursor
  orTry inside (onWord text cursor isExplicit)

/-- The last closing brace stands behind an opening one just when one stands there at all. -/
theorem closes_iff (pre inner : List Char) :
    (lastOf '}' (pre ++ '{' :: inner)).any (Text.byteLength pre < ·) = true ↔ '}' ∈ inner := by
  by_cases h : '}' ∈ inner
  · obtain ⟨front, hinner, hrest⟩ := Text.afterLast_iff.mpr ⟨h, rfl⟩
    have hlast := lastOf_append (pre ++ '{' :: front) hrest
    rw [List.append_assoc, List.cons_append, ← hinner, Text.byteLength_append] at hlast
    rw [hlast]
    have hpos : 0 < Text.byteLength ('{' :: front) := Nat.add_pos_left ('{').utf8Size_pos _
    simpa [h] using hpos
  · rcases lastOf_cases '}' (pre ++ '{' :: inner) with ⟨-, hlast⟩ | ⟨front, rest, he, -, hlast⟩
    · simp [hlast, h]
    · rcases List.append_eq_append_iff.mp he with ⟨mid, -, hmid⟩ | ⟨mid, hpre, -⟩
      · -- it cannot be behind the opening one
        have hmem : '}' ∈ '{' :: inner := by
          rw [hmid]
          simp
        exact absurd (List.mem_of_ne_of_mem (by decide) hmem) h
      · have hle : Text.byteLength front ≤ Text.byteLength pre := by
          rw [hpre, Text.byteLength_append]
          omega
        simp [hlast, h, hle]

/-- **A slice of the name is the name that is assigned to.** -/
theorem labelSpan?_cases (line : List Char) :
    (Context.assignedLabel? line = none ∧ labelSpan? 0 line = none) ∨
    ∃ label start stop, Context.assignedLabel? line = some label ∧
      labelSpan? 0 line = some (start, stop) ∧ slice line start stop = some label := by
  cases hlabel : Context.assignedLabel? line with
  | none =>
      refine Or.inl ⟨rfl, labelSpan?_eq_none 0 fun label h => ?_⟩
      rw [Context.assignedLabel?_eq_some_iff.mpr h] at hlabel
      exact absurd hlabel (by simp)
  | some label =>
      obtain ⟨hne, front, rfl, pre, rfl, hword, hpre⟩ :=
        Context.assignedLabel?_eq_some_iff.mp hlabel
      refine Or.inr ⟨label, _, _, rfl, ?_, (slice_eq ..).trans (Text.slice?_append pre label ['='])⟩
      rw [List.append_assoc, labelSpan?_append 0 hne hword hpre, Nat.zero_add]

theorem inSelector_eq (before line : List Char) (cursor : Nat) :
    inSelector before line cursor = some (Context.inSelector? before line cursor) := by
  rw [inSelector, Context.inSelector?]
  rcases lastOf_cases '{' before with ⟨hnone, hlast⟩ | ⟨pre, inner, rfl, hopen, hlast⟩
  · have hclosed : Context.openSelector? before = none := by simp [Context.openSelector?, hnone]
    rw [hlast, hclosed]
    rfl
  rw [hlast]
  dsimp only
  by_cases hclose : '}' ∈ inner
  · have hclosed : Context.openSelector? (pre ++ '{' :: inner) = none := by
      by_contra hsome
      obtain ⟨inner', hinner'⟩ := Option.ne_none_iff_exists'.mp hsome
      obtain ⟨hafter, hnot⟩ := Context.openSelector?_eq_some_iff.mp hinner'
      rw [hafter.unique ⟨pre, rfl, hopen⟩] at hnot
      exact hnot hclose
    rw [if_pos ((closes_iff pre inner).mpr hclose), hclosed]
    rfl
  · have hinner : Context.openSelector? (pre ++ '{' :: inner) = some inner :=
      Context.openSelector?_eq_some_iff.mpr ⟨⟨pre, rfl, hopen⟩, hclose⟩
    rw [if_neg fun h => hclose ((closes_iff pre inner).mp h), slice_behind pre inner rfl, hinner]
    simp only [Option.bind_eq_bind, Option.bind_some]
    split
    · rfl
    · rcases labelSpan?_cases line with ⟨hlabel, hspan⟩ | ⟨label, start, stop, hlabel, hspan, hs⟩
      · rw [hlabel, hspan]
        rfl
      · rw [hlabel, hspan]
        dsimp only
        rw [hs]
        rfl

theorem onWord_eq (h : Text.IsBoundary text cursor) (isExplicit : Bool) :
    onWord text cursor isExplicit = some (Context.onWord? text cursor isExplicit) := by
  rw [onWord, wordStart_eq h, Option.bind_eq_bind, Option.bind_some, Context.onWord?]
  split <;> rfl

/-- **Classifying by the text alone always comes to an end.** -/
theorem ofText_eq (h : Text.IsBoundary text cursor) (isExplicit : Bool) :
    ofText text cursor isExplicit = some (Context.ofText? text cursor isExplicit) := by
  rw [ofText, slice_upTo h, lineBefore_eq h, onWord_eq h, Context.ofText?]
  simp only [Option.bind_eq_bind, Option.bind_some, inSelector_eq, orTry_some]

/-! ## The tree -/

/-- The cursor is inside a pipeline. -/
noncomputable def inPipeline (tree : Tree) (text : List Char) (node cursor : Nat) :
    Option (Option Context) := do
  let above ← tree.climb node
  if above.any (tree.kind? · == some .pipeline) then
    let start ← wordStart (Text.bytes text) cursor
    return some ⟨.wordOf Vocabulary.stages, start, .treePipeline⟩
  else return none

/-- The context that the tree shows. -/
noncomputable def ofTree (tree : Tree) (text : List Char) (cursor : Nat) :
    Option (Option Context) := do
  let node ← tree.seek .before cursor tree.root
  orTry (Context.onMatcher? tree node cursor)
    (orTry (Context.inMatcherString? tree text node) (inPipeline tree text node cursor))

/-- **Asking a tree without a cycle always comes to an end**, wherever its spans lie. -/
theorem ofTree_eq {tree : Tree} (ht : tree.Acyclic) (h : Text.IsBoundary text cursor) :
    ofTree tree text cursor = some (Context.ofTree? tree text cursor) := by
  obtain ⟨hseek, hclimb, -⟩ := ht.walks_end
  have hpipeline : ∀ node, inPipeline tree text node cursor =
      some (Context.inPipeline? tree text node cursor) := by
    intro node
    rw [inPipeline, hclimb, wordStart_eq h, Option.bind_eq_bind, Option.bind_some,
      Context.inPipeline?]
    split <;> rfl
  rw [ofTree, hseek, Option.bind_eq_bind, Option.bind_some, hpipeline, orTry_some, orTry_some,
    Context.ofTree?]

/-! ## Requests -/

/-- What the tree of a request shows, if there is a tree. -/
noncomputable def treeContext (r : Request) (cursor : Nat) : Option (Option Context) :=
  match r.tree with
  | some tree => ofTree tree r.text cursor
  | none => some none

/-- What the place of the cursor calls for. -/
noncomputable def context (r : Request) : Option (Option Context) :=
  if r.text.isEmpty then some none
  else do
    let cursor ← clamp r.text r.cursor
    let shown ← treeContext r cursor
    orTry shown (ofText r.text cursor r.isExplicit)

/-- **Classifying a request always comes to an end**, with the context of its place. -/
theorem context_eq {r : Request} (h : ∀ t, r.tree = some t → t.Acyclic) :
    context r = some r.context? := by
  have hb := Text.isBoundary_clamp r.text r.cursor
  have htree : treeContext r (Text.clamp r.text r.cursor) = some r.treeContext? := by
    rw [treeContext, Request.treeContext?, Request.place]
    cases ht : r.tree with
    | none => rfl
    | some tree => exact ofTree_eq (h tree ht) hb
  rw [context, Request.context?]
  split
  · rfl
  · simp only [clamp_eq, htree, ofText_eq hb, orTry_some, Option.bind_eq_bind, Option.bind_some]
    rfl

end LogQL.Checked
