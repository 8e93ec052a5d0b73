import LogQL.Proofs.Context.Anchor
import LogQL.Proofs.Session.Asking
import Mathlib.Data.List.Forall2

/-!
# What the source of labels decides

Completing a text needs a source of labels, and the source may be anything: it may have a state of
its own, answer the same question differently each time, or fail always (`Labels.Source`). What it
cannot do is decide whether something is offered, and where the replaced text begins; the request
alone settles that, before any question is put. Words of the language are offered without a question.
For label names and values there is one question, about the label that was found at the cursor, and
the answer becomes the list of suggestions, value by value. No answer is an empty list.

Questions are counted by a source that keeps a list of them and else does what the given one does
(`recording`), so they are what the source was called for and not what a request says that it needs.
-/

namespace LogQL

open Cache (Question)

variable {σ τ : Type}

/-! ## The rules and what they call for -/

/-- What a rule calls for. -/
inductive Context.CallsFor : Context.Rule → Context.Intent → Prop where
  | treeLabelMatcher : CallsFor .treeLabelMatcher .labelName
  | treeLabelValue (label : String) : CallsFor .treeLabelValue (.labelValue label .single)
  | treePipeline : CallsFor .treePipeline (.wordOf Vocabulary.stages)
  | textLabelName : CallsFor .textLabelName .labelName
  | textLabelValue (label : String) : CallsFor .textLabelValue (.labelValue label .double)
  | word : CallsFor .word .anyWord

namespace Context

variable {ctx : Context} {tree : Tree} {text : List Char} {node cursor : Nat}

theorem callsFor_onMatcher? (h : onMatcher? tree node cursor = some ctx) :
    CallsFor ctx.rule ctx.intent := by
  unfold onMatcher? at h
  obtain ⟨kind, -, h⟩ := Option.bind_eq_some_iff.mp h
  split at h
  · obtain rfl := Option.some.inj h
    exact .treeLabelMatcher
  split at h
  · obtain ⟨p, -, h⟩ := Option.bind_eq_some_iff.mp h
    obtain ⟨parentKind, -, h⟩ := Option.bind_eq_some_iff.mp h
    obtain ⟨s, -, h⟩ := Option.bind_eq_some_iff.mp h
    split at h
    · obtain rfl := Option.some.inj h
      exact .treeLabelMatcher
    · exact absurd h (by simp)
  · exact absurd h (by simp)

theorem callsFor_inMatcherString? (h : inMatcherString? tree text node = some ctx) :
    CallsFor ctx.rule ctx.intent := by
  unfold inMatcherString? at h
  obtain ⟨kind, -, h⟩ := Option.bind_eq_some_iff.mp h
  obtain ⟨sibling, -, h⟩ := Option.bind_eq_some_iff.mp h
  obtain ⟨before, -, h⟩ := Option.bind_eq_some_iff.mp h
  obtain ⟨p, -, h⟩ := Option.bind_eq_some_iff.mp h
  obtain ⟨matcherKind, -, h⟩ := Option.bind_eq_some_iff.mp h
  split at h
  · obtain ⟨name, -, h⟩ := Option.bind_eq_some_iff.mp h
    obtain ⟨nameSpan, -, h⟩ := Option.bind_eq_some_iff.mp h
    obtain ⟨label, -, h⟩ := Option.bind_eq_some_iff.mp h
    obtain ⟨s, -, h⟩ := Option.bind_eq_some_iff.mp h
    obtain rfl := Option.some.inj h
    exact .treeLabelValue _
  · exact absurd h (by simp)

theorem callsFor_inPipeline? (h : inPipeline? tree text node cursor = some ctx) :
    CallsFor ctx.rule ctx.intent := by
  unfold inPipeline? at h
  split at h
  · obtain rfl := Option.some.inj h
    exact .treePipeline
  · exact absurd h (by simp)

theorem callsFor_inSelector? {before line : List Char}
    (h : inSelector? before line cursor = some ctx) : CallsFor ctx.rule ctx.intent := by
  unfold inSelector? at h
  obtain ⟨inner, -, h⟩ := Option.bind_eq_some_iff.mp h
  dsimp only at h
  split at h
  · obtain rfl := Option.some.inj h
    exact .textLabelName
  · obtain ⟨label, -, h⟩ := Option.bind_eq_some_iff.mp h
    obtain rfl := Option.some.inj h
    exact .textLabelValue _

theorem callsFor_onWord? {isExplicit : Bool} (h : onWord? text cursor isExplicit = some ctx) :
    CallsFor ctx.rule ctx.intent := by
  unfold onWord? at h
  dsimp only at h
  split at h
  · exact absurd h (by simp)
  · obtain rfl := Option.some.inj h
    exact .word

/-- **The rule by which a context was found tells what it calls for.** -/
theorem callsFor_of_context? {r : Request} (h : r.context? = some ctx) :
    CallsFor ctx.rule ctx.intent := by
  unfold Request.context? at h
  split at h
  · exact absurd h (by simp)
  · rcases of_orElse h with h | h
    · obtain ⟨tree, -, h⟩ := Option.bind_eq_some_iff.mp h
      rcases of_orElse h with h | h
      · exact callsFor_onMatcher? h
      rcases of_orElse h with h | h
      · exact callsFor_inMatcherString? h
      · exact callsFor_inPipeline? h
    · unfold Request.textContext? ofText? at h
      rcases of_orElse h with h | h
      · exact callsFor_inSelector? h
      · exact callsFor_onWord? h

end Context

/-! ## Sources -/

/-- A source of labels: it keeps a state, and a question to it may fail. -/
abbrev Labels.Source (τ : Type) := Question → StateM τ (Except Labels.Failure Labels.Answer)

namespace Labels.Source

/-- The values that a source has for a question. A failure is as good as no values. -/
def values (p : Source τ) (q : Question) : StateM τ (List String) := do
  return valuesOf (← p q)

/-- The source `p`, with a list of the questions put to it. -/
def recording (p : Source τ) : Source (τ × List Question) := fun q (s, asked) =>
  let (answer, s) := p q s
  (answer, s, asked ++ [q])

end Labels.Source

/-- What comes of a request: the offer, the state that the source is left in, and the questions that
were put to it. -/
structure Resolution (τ : Type) where
  offer : Option Completion
  state : τ
  asked : List Question

namespace Request

/-- Complete a request with the help of a source. -/
def resolve (r : Request) (p : Labels.Source τ) (s : τ) : Resolution τ :=
  let (offer, state, asked) := (r.complete? p.recording.values).run (s, [])
  ⟨offer, state, asked⟩

variable {r : Request} {p : Labels.Source τ} {s : τ} {ctx : Context}

theorem resolve_nowhere (h : r.context? = none) : r.resolve p s = ⟨none, s, []⟩ := by
  rw [resolve, complete?, h]
  rfl

theorem resolve_word (h : r.context? = some ctx) (hq : ctx.intent.question? = none) :
    r.resolve p s = ⟨some ⟨ctx.anchor, ctx.intent.suggestions []⟩, s, []⟩ := by
  rw [resolve, complete?, h]
  dsimp only
  rw [hq]
  rfl

theorem resolve_question {q : Question} (h : r.context? = some ctx)
    (hq : ctx.intent.question? = some q) :
    r.resolve p s =
      ⟨some ⟨ctx.anchor, ctx.intent.suggestions (Labels.valuesOf (p q s).1)⟩, (p q s).2, [q]⟩ := by
  rw [resolve, complete?, h]
  dsimp only
  rw [hq]
  rfl

/-- The list of questions is only looked on: without it the offer is the same. -/
theorem complete?_values (r : Request) (p : Labels.Source τ) (s : τ) :
    (r.complete? p.values).run s = ((r.resolve p s).offer, (r.resolve p s).state) := by
  cases h : r.context? with
  | none =>
      rw [resolve_nowhere h, complete?, h]
      rfl
  | some ctx =>
      cases hq : ctx.intent.question? with
      | none =>
          rw [resolve_word h hq, complete?, h]
          dsimp only
          rw [hq]
          rfl
      | some q =>
          rw [resolve_question h hq, complete?, h]
          dsimp only
          rw [hq]
          rfl

end Request

/-! ## Suggestions -/

namespace Suggestion

/-- The suggestion is for a label name. -/
structure IsName (name : String) (x : Suggestion) : Prop where
  kind_eq : x.kind = .label
  insertion_eq : x.insertion = name ++ "="

/-- The suggestion is for a label value that replaces a string of the tree. -/
structure IsTreeValue (value : String) (x : Suggestion) : Prop where
  kind_eq : x.kind = .value
  label_eq : x.label = "'" ++ value ++ "'"

/-- The suggestion is for a label value that the text has no quotes for yet. -/
structure IsTextValue (value : String) (x : Suggestion) : Prop where
  kind_eq : x.kind = .value
  insertion_eq : x.insertion = "\"" ++ value ++ "\""

theorem forall₂_ofLabel (names : List String) :
    List.Forall₂ IsName names (names.map ofLabel) :=
  List.forall₂_map_right_iff.mpr (List.forall₂_same.mpr fun _ _ => ⟨rfl, rfl⟩)

theorem forall₂_ofQuotedValue (label : String) (values : List String) :
    List.Forall₂ IsTreeValue values (values.map (ofQuotedValue label)) :=
  List.forall₂_map_right_iff.mpr (List.forall₂_same.mpr fun _ _ => ⟨rfl, rfl⟩)

theorem forall₂_ofBareValue (label : String) (values : List String) :
    List.Forall₂ IsTextValue values (values.map (ofBareValue label)) :=
  List.forall₂_map_right_iff.mpr (List.forall₂_same.mpr fun _ _ => ⟨rfl, rfl⟩)

end Suggestion

/-! ## What may come of a request -/

namespace Request

open Suggestion

/-- What comes of a request to a source, by what the place of the cursor calls for. -/
inductive Resolves (r : Request) (p : Labels.Source τ) (s : τ) : Resolution τ → Prop where
  | nowhere : r.context? = none → Resolves r p s ⟨none, s, []⟩
  | anyWord {ctx : Context} :
      r.context? = some ctx → ctx.intent = .anyWord →
      Resolves r p s ⟨some ⟨ctx.anchor, Vocabulary.words⟩, s, []⟩
  | wordOf {ctx : Context} {kinds : List WordKind} :
      r.context? = some ctx → ctx.intent = .wordOf kinds →
      Resolves r p s ⟨some ⟨ctx.anchor, Vocabulary.ofKinds kinds⟩, s, []⟩
  | names {ctx : Context} {xs : List Suggestion} :
      r.context? = some ctx → ctx.intent = .labelName →
      List.Forall₂ IsName (Labels.valuesOf (p .names s).1) xs →
      Resolves r p s ⟨some ⟨ctx.anchor, xs⟩, (p .names s).2, [.names]⟩
  | treeValues {ctx : Context} {label : String} {xs : List Suggestion} :
      r.context? = some ctx → ctx.intent = .labelValue label .single → ctx.rule = .treeLabelValue →
      List.Forall₂ IsTreeValue (Labels.valuesOf (p (.values label) s).1) xs →
      Resolves r p s ⟨some ⟨ctx.anchor, xs⟩, (p (.values label) s).2, [.values label]⟩
  | textValues {ctx : Context} {label : String} {xs : List Suggestion} :
      r.context? = some ctx → ctx.intent = .labelValue label .double → ctx.rule = .textLabelValue →
      List.Forall₂ IsTextValue (Labels.valuesOf (p (.values label) s).1) xs →
      Resolves r p s ⟨some ⟨ctx.anchor, xs⟩, (p (.values label) s).2, [.values label]⟩

/-- **What comes of a request is one of these.** -/
theorem resolves (r : Request) (p : Labels.Source τ) (s : τ) : Resolves r p s (r.resolve p s) := by
  cases h : r.context? with
  | none =>
      rw [resolve_nowhere h]
      exact .nowhere h
  | some ctx =>
      obtain ⟨intent, anchor, rule⟩ := ctx
      -- only the rule tells which quotes a value gets
      have hcalls : Context.CallsFor rule intent := Context.callsFor_of_context? h
      cases hcalls with
      | word =>
          rw [resolve_word h rfl]
          exact .anyWord h rfl
      | treePipeline =>
          rw [resolve_word h rfl]
          exact .wordOf h rfl
      | treeLabelMatcher =>
          rw [resolve_question h rfl]
          exact .names h rfl (forall₂_ofLabel _)
      | textLabelName =>
          rw [resolve_question h rfl]
          exact .names h rfl (forall₂_ofLabel _)
      | treeLabelValue label =>
          rw [resolve_question h rfl]
          exact .treeValues h rfl rfl (forall₂_ofQuotedValue label _)
      | textLabelValue label =>
          rw [resolve_question h rfl]
          exact .textValues h rfl rfl (forall₂_ofBareValue label _)

end Request

/-! ## Two sources -/

namespace Context.Intent

/-- Words of the language are called for. -/
inductive OfWords : Intent → Prop where
  | anyWord : OfWords .anyWord
  | wordOf (kinds : List WordKind) : OfWords (.wordOf kinds)

/-- The answer to a question is called for. -/
inductive Asks : Intent → Question → Prop where
  | labelName : Asks .labelName .names
  | labelValue (label : String) (quote : QuoteStyle) :
      Asks (.labelValue label quote) (.values label)

variable {intent : Intent} {q : Question}

theorem OfWords.question? (h : intent.OfWords) : intent.question? = none := by
  cases h <;> rfl

theorem Asks.question? (h : intent.Asks q) : intent.question? = some q := by
  cases h <;> rfl

/-- No values, no suggestions. -/
theorem Asks.suggestions_nil (h : intent.Asks q) : intent.suggestions [] = [] := by
  cases h with
  | labelName => rfl
  | labelValue label quote => cases quote <;> rfl

end Context.Intent

namespace Request

/-- What is known of an offer before any question is put. -/
theorem resolve_offer_anchor (r : Request) (p : Labels.Source τ) (s : τ) :
    (r.resolve p s).offer.map (·.anchor) = r.context?.map (·.anchor) := by
  cases h : r.context? with
  | none => rw [resolve_nowhere h]; rfl
  | some ctx =>
      cases hq : ctx.intent.question? with
      | none => rw [resolve_word h hq]; rfl
      | some q => rw [resolve_question h hq]; rfl

/-- What a source is asked is known before it answers. -/
theorem resolve_asked (r : Request) (p : Labels.Source τ) (s : τ) :
    (r.resolve p s).asked = r.question?.toList := by
  rw [question?]
  cases h : r.context? with
  | none => rw [resolve_nowhere h]; rfl
  | some ctx =>
      rw [Option.bind_some]
      cases hq : ctx.intent.question? with
      | none => rw [resolve_word h hq]; rfl
      | some q => rw [resolve_question h hq]; rfl

theorem resolve_of_words {r : Request} {ctx : Context} (h : r.context? = some ctx)
    (hwords : ctx.intent.OfWords) (p : Labels.Source τ) (s : τ) :
    r.resolve p s = ⟨some ⟨ctx.anchor, ctx.intent.suggestions []⟩, s, []⟩ :=
  resolve_word h hwords.question?

/-- A source that fails makes for an empty list. -/
theorem resolve_of_failure {r : Request} {ctx : Context} {q : Question} (h : r.context? = some ctx)
    (hasks : ctx.intent.Asks q) {p : Labels.Source τ} {s : τ} {failure : Labels.Failure}
    (hfails : (p q s).1 = .error failure) :
    (r.resolve p s).offer = some ⟨ctx.anchor, []⟩ := by
  have hvalues : Labels.valuesOf (p q s).1 = [] := by rw [hfails]; rfl
  rw [resolve_question h hasks.question?, hvalues, hasks.suggestions_nil]

/-- **A source decides neither whether something is offered nor where.** Two sources, in whatever
states, either both make for an offer or both do not; the offers have the same anchor, and the same
questions are put. Words of the language are offered without a question, the same ones for both. For
label names and values each source is asked once, about the label at the cursor, and what it answers
is offered value by value, while a failure makes for an empty list. -/
theorem offers_agree {σ : Type} (r : Request) (p : Labels.Source σ) (s : σ) (p' : Labels.Source τ)
    (s' : τ) :
    let one := r.resolve p s
    let other := r.resolve p' s'
    ((one.offer = none ↔ other.offer = none) ∧
      one.offer.map (·.anchor) = other.offer.map (·.anchor) ∧ one.asked = other.asked) ∧
    (∀ ctx, r.context? = some ctx →
      (ctx.intent.OfWords → one.offer = other.offer ∧ one.asked = []) ∧
      ∀ q, ctx.intent.Asks q → one.asked = [q] ∧
        ∀ failure, (p q s).1 = .error failure → one.offer = some ⟨ctx.anchor, []⟩) ∧
    r.Resolves p s one ∧
    (r.complete? p.values).run s = (one.offer, one.state) := by
  intro one other
  -- what a source is not needed for is the same for both
  have hanchor : one.offer.map (·.anchor) = other.offer.map (·.anchor) :=
    (resolve_offer_anchor r p s).trans (resolve_offer_anchor r p' s').symm
  have hasked : one.asked = other.asked :=
    (resolve_asked r p s).trans (resolve_asked r p' s').symm
  refine ⟨⟨?_, hanchor, hasked⟩, fun ctx hctx => ⟨fun hwords => ?_, fun q hasks => ⟨?_, ?_⟩⟩,
    resolves r p s, complete?_values r p s⟩
  · rw [← Option.map_eq_none_iff, hanchor, Option.map_eq_none_iff]
  · have hone : one = _ := resolve_of_words hctx hwords p s
    have hother : other = _ := resolve_of_words hctx hwords p' s'
    rw [hone, hother]
    exact ⟨rfl, rfl⟩
  · have hone : one = _ := resolve_question hctx hasks.question?
    rw [hone]
  · exact fun failure hfails => resolve_of_failure hctx hasks hfails

end Request

/-! ## The source of a session -/

/-- A session and its client, as a source of labels. -/
def Session.source (fetch : Fetch.Fetcher σ) (now later : Millis) : Labels.Source (Session × σ) :=
  fun q (s, w) => s.ask fetch now q w later

/-- **What a session offers is what comes of the request to its source**, if completion is on. -/
theorem Session.complete_eq (fetch : Fetch.Fetcher σ) (now later : Millis) (r : Request)
    (s : Session) (w : σ) :
    s.complete fetch now r w later =
      if s.settings.completes then
        let resolution := r.resolve (source fetch now later) (s.begin.2, w)
        ((s.begin.1, resolution.offer), resolution.state)
      else ((s.begin.1, none), s.begin.2, w) := by
  have hrun : (r.complete? (askM fetch now later)).run (s.begin.2, w) = _ :=
    r.complete?_values (source fetch now later) (s.begin.2, w)
  rw [complete]
  show (if s.settings.completes = true then
    ((s.begin.1, ((r.complete? (askM fetch now later)).run (s.begin.2, w)).1),
      ((r.complete? (askM fetch now later)).run (s.begin.2, w)).2) else _) = _
  rw [hrun]
  rfl

end LogQL
