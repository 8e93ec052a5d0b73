import LogQL.Proofs.Labels.Answers
import LogQL.Session

/-!
# What a completion asks for

A session whose source is the one of its settings puts at most one question to its cache for each
completion, and at most one request to the client. Which question it is, and to which source, is
known from the request and the settings alone (`Request.inquiry?`); the cache only decides whether a
request is made (`Session.complete_cases`).
-/

namespace LogQL

open Cache (Question)
open Labels (Remote)

variable {σ : Type}

/-! ## What a completion looks up -/

/-- The question that has to be answered before anything can be offered. -/
def Request.question? (r : Request) : Option Question :=
  r.context?.bind fun context => context.intent.question?

/-- A completion puts its question, if it has one, and nothing else. -/
theorem Request.complete?_state {τ : Type} (ask : Question → StateM τ (List String)) (r : Request)
    (t : τ) :
    ((r.complete? ask).run t).2 =
      match r.question? with
      | none => t
      | some q => ((ask q).run t).2 := by
  rw [complete?, question?]
  cases r.context? with
  | none => rfl
  | some context =>
      cases hq : context.intent.question? with
      | none => simp only [Option.bind_some, hq]; rfl
      | some q => simp only [Option.bind_some, hq]; rfl

/-- What a completion looks up where these are the settings: a question to the source that they
name. -/
def Request.inquiry? (settings : Settings) (r : Request) : Option (Remote × Question) :=
  if settings.completes then
    r.question?.bind fun q => settings.source.map fun address =>
      (.ofAddress address settings.fetchOptions, q)
  else none

namespace Session

/-- The session has these settings and their source, whose cache is its own. -/
structure Follows (s : Session) (settings : Settings) : Prop where
  settings_eq : s.settings = settings
  provider_eq : s.provider = providerOf settings
  apart_eq : s.apart = none
  lasts : s.cache.Lasts ⟨settings.cacheLifetime⟩

variable {settings : Settings} {s : Session} {fetch : Fetch.Fetcher σ} {now later : Millis}
  {r : Request} {w : σ}

theorem follows_ofSettings (settings : Settings) : (ofSettings settings).Follows settings :=
  ⟨rfl, rfl, rfl, Cache.Labels.lasts_empty _⟩

theorem complete_state (fetch : Fetch.Fetcher σ) (now later : Millis) (r : Request)
    (s : Session) (w : σ) :
    (s.complete fetch now r w later).2 =
      if s.settings.completes then ((r.complete? (askM fetch now later)).run (s.begin.2, w)).2
      else (s.begin.2, w) := by
  rw [complete]
  show (if s.settings.completes = true then _ else _ : (UInt64 × Option Completion) × _).2 = _
  split <;> rfl

/-- A session without a cache apart puts its questions to its own. -/
theorem ask_own (h : s.apart = none) (fetch : Fetch.Fetcher σ) (now later : Millis) (q : Question)
    (w : σ) :
    let asked := s.provider.ask fetch now q s.cache w later
    s.ask fetch now q w later = (asked.1, { s with cache := asked.2.1 }, asked.2.2) := by
  obtain ⟨settings, provider, cache, apart, generation⟩ := s
  obtain rfl : apart = none := h
  rfl

/-- **A completion asks for what it looks up**, and for nothing else. -/
theorem complete_asks (h : s.Follows settings) (fetch : Fetch.Fetcher σ) (now later : Millis)
    (r : Request) (w : σ) :
    (s.complete fetch now r w later).2 =
      match r.inquiry? settings with
      | none => (s.begin.2, w)
      | some (m, q) =>
        let asked := m.ask fetch now q s.cache w later
        ({ s.begin.2 with cache := asked.2.1 }, asked.2.2) := by
  rw [complete_state, h.settings_eq, Request.inquiry?]
  by_cases hon : settings.completes = true
  · rw [if_pos hon, if_pos hon, Request.complete?_state]
    cases r.question? with
    | none => rfl
    | some q =>
        -- the token has been drawn, which changes neither the source nor the cache
        have hasked : ((askM fetch now later q).run (s.begin.2, w)).2 =
            let asked := (providerOf settings).ask fetch now q s.cache w later
            ({ s.begin.2 with cache := asked.2.1 }, asked.2.2) := by
          rw [← h.provider_eq]
          exact congrArg Prod.snd (ask_own (s := s.begin.2) h.apart_eq fetch now later q w)
        rw [providerOf] at hasked
        dsimp only
        rw [hasked]
        cases settings.source with
        | none => rfl
        | some address => rfl
  · rw [if_neg hon, if_neg hon]

/-- **A completion looks up nothing, or it is answered by the cache, or it makes one request.** -/
theorem complete_cases (h : s.Follows settings) (fetch : Fetch.Fetcher σ) (now later : Millis)
    (r : Request) (w : σ) :
    let done := (s.complete fetch now r w later).2
    (r.inquiry? settings = none ∧ done = (s.begin.2, w)) ∨
    ∃ m q, r.inquiry? settings = some (m, q) ∧
      let found := s.cache.read now m.base q
      let requested := fetch (m.address q) m.options w
      (∃ values, found.1 = some values ∧ done = ({ s.begin.2 with cache := found.2 }, w)) ∨
      (found.1 = none ∧
        done = ({ s.begin.2 with
          cache := Labels.keep ⟨m, q, [], .due⟩ later found.2 (Labels.replyOf requested.1) },
          requested.2)) := by
  intro done
  have hdone : done = _ := complete_asks h fetch now later r w
  cases hinquiry : r.inquiry? settings with
  | none =>
      rw [hinquiry] at hdone
      exact Or.inl ⟨rfl, hdone⟩
  | some inquiry =>
      obtain ⟨m, q⟩ := inquiry
      rw [hinquiry] at hdone
      dsimp only at hdone
      refine Or.inr ⟨m, q, rfl, ?_⟩
      cases hread : (s.cache.read now m.base q).1 with
      | some values =>
          rw [Remote.ask_of_some hread] at hdone
          exact Or.inl ⟨values, hread, hdone⟩
      | none =>
          rw [Remote.ask_of_none hread] at hdone
          exact Or.inr ⟨hread, hdone⟩

end Session

/-! ## What is asked for, said by the text -/

/-- The completion needs an answer to the question, from the source with this address. -/
inductive Request.Needs (settings : Settings) (r : Request) : String → Question → Prop where
  | names {address : String} {context : Context} :
      settings.completes = true → settings.source = some address →
      r.context? = some context → context.intent = .labelName →
      Needs settings r (Labels.trimBase address) .names
  | values {address label : String} {context : Context} {quote : Context.QuoteStyle} :
      settings.completes = true → settings.source = some address →
      r.context? = some context → context.intent = .labelValue label quote →
      Needs settings r (Labels.trimBase address) (.values label)

theorem Request.needs_of_inquiry? {settings : Settings} {r : Request} {m : Remote} {q : Question}
    (h : r.inquiry? settings = some (m, q)) : r.Needs settings m.base q := by
  rw [inquiry?] at h
  split at h
  · rename_i hon
    obtain ⟨p, hp, h⟩ := Option.bind_eq_some_iff.mp h
    obtain ⟨address, haddress, h⟩ := Option.map_eq_some_iff.mp h
    obtain ⟨rfl, rfl⟩ := Prod.mk.inj h
    obtain ⟨context, hcontext, hquestion⟩ := Option.bind_eq_some_iff.mp hp
    cases hintent : context.intent with
    | anyWord =>
        rw [hintent] at hquestion
        exact absurd hquestion (by simp [Context.Intent.question?])
    | wordOf kinds =>
        rw [hintent] at hquestion
        exact absurd hquestion (by simp [Context.Intent.question?])
    | labelName =>
        rw [hintent] at hquestion
        obtain rfl := Option.some.inj hquestion
        exact .names hon haddress hcontext hintent
    | labelValue label quote =>
        rw [hintent] at hquestion
        obtain rfl := Option.some.inj hquestion
        exact .values hon haddress hcontext hintent
  · exact absurd h (by simp)

theorem Request.Needs.inquiry? {settings : Settings} {r : Request} {source : String} {q : Question}
    (h : r.Needs settings source q) :
    ∃ m, r.inquiry? settings = some (m, q) ∧ m.base = source := by
  cases h with
  | @names address context hon haddress hcontext hintent =>
      refine ⟨.ofAddress address settings.fetchOptions, ?_, rfl⟩
      rw [Request.inquiry?, if_pos hon, Request.question?, hcontext, Option.bind_some, hintent,
        haddress]
      rfl
  | @values address label context quote hon haddress hcontext hintent =>
      refine ⟨.ofAddress address settings.fetchOptions, ?_, rfl⟩
      rw [Request.inquiry?, if_pos hon, Request.question?, hcontext, Option.bind_some, hintent,
        haddress]
      rfl

/-- The cache holds an entry that is younger than the lifetime. -/
def Cache.Labels.Fresh (lifetime : Lifetime) (c : Cache.Labels) (now : Millis) (source : String)
    (q : Question) : Prop :=
  ∃ e, c.held? source q = some e ∧ now.toNat - e.storedAt.toNat < lifetime.millis.toNat

theorem Cache.Labels.Lasts.fresh_iff {lifetime : Lifetime} {c : Cache.Labels} (h : c.Lasts lifetime)
    (now : Millis) (source : String) (q : Question) :
    c.Fresh lifetime now source q ↔ ∃ values, (c.read now source q).1 = some values := by
  constructor
  · rintro ⟨e, hheld, hage⟩
    exact ⟨e.data, h.read_eq_some_iff.mpr ⟨e, hheld, hage, rfl⟩⟩
  · rintro ⟨values, hvalues⟩
    obtain ⟨e, hheld, hage, -⟩ := h.read_eq_some_iff.mp hvalues
    exact ⟨e, hheld, hage⟩

end LogQL
