import LogQL.Proofs.Cache.Counting
import LogQL.Proofs.Session.Asking

/-!
# What a session counts

The four counters of the cache of a session are an account of what the session was called for and
what its client was asked for: the reads are the completions that needed an answer, the reads that
found nothing fresh are the requests, and the stores are the requests that brought a list
(`Accounts`). Counters are words of 64 bits, so all this is modulo their size.

The client is left open; `recording` keeps a list of what it is asked for and what it says.
-/

namespace LogQL

open Cache (Question)
open Labels (Exchange Remote)

variable {σ : Type}

/-- A client that keeps a record of its requests. -/
def Fetch.recording (fetch : Fetch.Fetcher σ) : Fetch.Fetcher (σ × List Exchange) :=
  fun address options (w, sent) =>
    let (outcome, w) := fetch address options w
    (outcome, w, sent ++ [⟨address, options, outcome⟩])

/-- The request brought a list. -/
def Labels.Exchange.bringsList (e : Exchange) : Bool :=
  match Labels.replyOf e.outcome with
  | .ok _ => true
  | .error _ => false

namespace Session

variable {settings : Settings} {s : Session} {fetch : Fetch.Fetcher σ} {now later : Millis}
  {r : Request} {w : σ}

/-! ## Calls -/

/-- Something that an editor calls a session for. -/
inductive Call where
  | complete (r : Request) (now later : Millis)
  | lint (text : List Char) (tree : Option Tree)
  | begin
  | clearCache
  | clearNames (source : Option String)
  | clearValues (source label : Option String)

/-- What a call makes of a session and its client. -/
def perform (fetch : Fetch.Fetcher σ) : Session × σ → Call → Session × σ
  | (s, w), .complete r now later => (s.complete fetch now r w later).2
  | (s, w), .lint _ _ => (s, w)
  | (s, w), .begin => (s.begin.2, w)
  | (s, w), .clearCache => (s.clearCache, w)
  | (s, w), .clearNames source => (s.clearNames source, w)
  | (s, w), .clearValues source label => (s.clearValues source label, w)

/-- The session and its client after some calls, with a record of what the client was asked. -/
def run (settings : Settings) (fetch : Fetch.Fetcher σ) (w : σ) (calls : List Call) :
    Session × σ × List Exchange :=
  calls.foldl (perform (Fetch.recording fetch)) (ofSettings settings, w, [])

theorem run_snoc (settings : Settings) (fetch : Fetch.Fetcher σ) (w : σ) (calls : List Call)
    (c : Call) :
    run settings fetch w (calls ++ [c]) =
      perform (Fetch.recording fetch) (run settings fetch w calls) c := by
  simp [run]

/-- The call needs an answer about labels. -/
def Call.inquires (settings : Settings) : Call → Bool
  | .complete r _ _ => (r.inquiry? settings).isSome
  | _ => false

/-- What a session has counted, and what it was called for and asked for. -/
structure Accounts (settings : Settings) (calls : List Call) (s : Session)
    (sent : List Exchange) : Prop where
  follows : s.Follows settings
  reads : s.cache.counters.reads = UInt64.ofNat (calls.countP (Call.inquires settings))
  failures : s.cache.counters.failures = UInt64.ofNat sent.length
  stores : s.cache.counters.stores = UInt64.ofNat (sent.countP Exchange.bringsList)

variable {calls : List Call} {sent : List Exchange}

theorem accounts_ofSettings (settings : Settings) : Accounts settings [] (ofSettings settings) [] :=
  ⟨follows_ofSettings settings, rfl, rfl, rfl⟩

/-! ## What a call adds -/

theorem Follows.cache (h : s.Follows settings) {cache : Cache.Labels}
    (hlasts : cache.Lasts ⟨settings.cacheLifetime⟩) : { s with cache }.Follows settings :=
  ⟨h.settings_eq, h.provider_eq, h.apart_eq, hlasts⟩

theorem Follows.begin (h : s.Follows settings) : s.begin.2.Follows settings :=
  ⟨h.settings_eq, h.provider_eq, h.apart_eq, h.lasts⟩

theorem countP_snoc {α : Type} {p : α → Bool} (l : List α) (x : α) :
    (l ++ [x]).countP p = l.countP p + if p x then 1 else 0 := by
  rw [List.countP_append, List.countP_singleton]

theorem Accounts.begin (h : Accounts settings calls s sent) :
    Accounts settings calls s.begin.2 sent :=
  ⟨h.follows.begin, h.reads, h.failures, h.stores⟩

/-- A call that needs no answer is not counted. -/
theorem Accounts.quiet (h : Accounts settings calls s sent) {c : Call}
    (hc : c.inquires settings = false) : Accounts settings (calls ++ [c]) s sent := by
  refine ⟨h.follows, ?_, h.failures, h.stores⟩
  rw [countP_snoc, hc]
  exact h.reads

/-- Neither is a clear. -/
theorem Accounts.forget (h : Accounts settings calls s sent) (k : Cache.Clear) :
    Accounts settings calls { s with cache := s.cache.forget k } sent := by
  obtain ⟨known, hknows⟩ := s.cache.exists_knows
  refine ⟨h.follows.cache (h.follows.lasts.forget hknows k), ?_, ?_, ?_⟩
  · rw [Cache.Labels.counters_forget]
    exact h.reads
  · rw [Cache.Labels.counters_forget]
    exact h.failures
  · rw [Cache.Labels.counters_forget]
    exact h.stores

/-- An answer of the cache is one more read. -/
theorem Accounts.found (h : Accounts settings calls s sent) {c : Call}
    (hc : c.inquires settings = true) {now : Millis} {source : String} {q : Question}
    {values : List String} (hread : (s.cache.read now source q).1 = some values) :
    Accounts settings (calls ++ [c]) { s with cache := (s.cache.read now source q).2 } sent := by
  have hfound : (s.cache.find now source q).data? = some values := hread
  refine ⟨h.follows.cache (h.follows.lasts.read now source q), ?_, ?_, ?_⟩
  · rw [Cache.Labels.counters_read, Cache.Counters.reads_read, h.reads, countP_snoc, hc]
    exact (UInt64.ofNat_add ..).symm
  · rw [Cache.Labels.counters_read, Cache.Counters.failures_read, hfound]
    exact h.failures
  · rw [Cache.Labels.counters_read, Cache.Counters.stores_read]
    exact h.stores

theorem lasts_keep {lifetime : Lifetime} {cache : Cache.Labels} (h : cache.Lasts lifetime)
    (x : Labels.Inquiry) (now : Millis) (reply : Except Labels.Failure (List String)) :
    (Labels.keep x now cache reply).Lasts lifetime := by
  cases reply with
  | error failure => exact h
  | ok values => exact h.store now x.remote.base x.question values

theorem counters_keep (x : Labels.Inquiry) (now : Millis) (cache : Cache.Labels) (e : Exchange) :
    (Labels.keep x now cache (Labels.replyOf e.outcome)).counters =
      if e.bringsList then cache.counters.stored else cache.counters := by
  rw [Labels.Exchange.bringsList]
  cases Labels.replyOf e.outcome with
  | error failure => rfl
  | ok values => exact Cache.Labels.counters_store ..

/-- A request is one more read that found nothing, and a store if it brought a list. -/
theorem Accounts.requested (h : Accounts settings calls s sent) {c : Call}
    (hc : c.inquires settings = true) {now : Millis} {m : Remote} {q : Question}
    (hread : (s.cache.read now m.base q).1 = none) (later : Millis) (e : Exchange) :
    let found := (s.cache.read now m.base q).2
    let cache := Labels.keep ⟨m, q, [], .due⟩ later found (Labels.replyOf e.outcome)
    Accounts settings (calls ++ [c]) { s with cache } (sent ++ [e]) := by
  intro found cache
  have hmiss : (s.cache.find now m.base q).data? = none := hread
  have hlasts : found.Lasts _ := h.follows.lasts.read now m.base q
  have hreads : found.counters.reads =
      UInt64.ofNat ((calls ++ [c]).countP (Call.inquires settings)) := by
    rw [Cache.Labels.counters_read, Cache.Counters.reads_read, h.reads, countP_snoc, hc]
    exact (UInt64.ofNat_add ..).symm
  have hfailures : found.counters.failures = UInt64.ofNat (sent ++ [e]).length := by
    rw [Cache.Labels.counters_read, Cache.Counters.failures_read, hmiss, h.failures,
      List.length_append]
    exact (UInt64.ofNat_add ..).symm
  have hstores : found.counters.stores = UInt64.ofNat (sent.countP Exchange.bringsList) := by
    rw [Cache.Labels.counters_read, Cache.Counters.stores_read]
    exact h.stores
  have hkeep := counters_keep ⟨m, q, [], .due⟩ later found e
  refine ⟨h.follows.cache (lasts_keep hlasts _ later _), ?_, ?_, ?_⟩
  · rw [hkeep]
    split <;> exact hreads
  · rw [hkeep]
    split <;> exact hfailures
  · rw [hkeep, countP_snoc]
    split
    · rw [UInt64.ofNat_add, ← hstores]
      rfl
    · exact hstores

/-- **Every call keeps the accounts.** -/
theorem Accounts.perform (h : Accounts settings calls s sent) (fetch : Fetch.Fetcher σ) (w : σ)
    (c : Call) :
    let st := perform (Fetch.recording fetch) (s, w, sent) c
    Accounts settings (calls ++ [c]) st.1 st.2.2 := by
  cases c with
  | lint text tree => exact h.quiet rfl
  | begin => exact (h.quiet rfl).begin
  | clearCache => exact (h.quiet rfl).forget .all
  | clearNames source => exact (h.quiet rfl).forget (.names _)
  | clearValues source label => exact (h.quiet rfl).forget (.values _ _)
  | complete r now later =>
      have hcases := complete_cases h.follows (Fetch.recording fetch) now later r (w, sent)
      intro st
      have hst : st = (s.complete (Fetch.recording fetch) now r (w, sent) later).2 := rfl
      rcases hcases with ⟨hnone, hdone⟩ | ⟨m, q, hsome, ⟨values, hread, hdone⟩ | ⟨hread, hdone⟩⟩
      · rw [hst, hdone]
        exact (h.quiet (by rw [Call.inquires, hnone]; rfl)).begin
      · have hc : Call.inquires settings (.complete r now later) = true := by
          rw [Call.inquires, hsome]
          rfl
        rw [hst, hdone]
        exact (h.found hc hread).begin
      · have hc : Call.inquires settings (.complete r now later) = true := by
          rw [Call.inquires, hsome]
          rfl
        rw [hst, hdone]
        exact (h.requested hc hread later ⟨m.address q, m.options, _⟩).begin

/-- **After any calls the counters are an account of them.** -/
theorem accounts_run (settings : Settings) (fetch : Fetch.Fetcher σ) (w : σ) (calls : List Call) :
    Accounts settings calls (run settings fetch w calls).1 (run settings fetch w calls).2.2 := by
  induction calls using List.reverseRecOn with
  | nil => exact accounts_ofSettings settings
  | append_singleton calls c ih =>
      rw [run_snoc]
      exact ih.perform fetch (run settings fetch w calls).2.1 c

/-! ## Completions that have to ask -/

/-- An answer is needed where one is looked up. -/
theorem inquires_iff (settings : Settings) (r : Request) (now later : Millis) :
    Call.inquires settings (.complete r now later) = true ↔
      ∃ source q, r.Needs settings source q := by
  rw [Call.inquires, Option.isSome_iff_exists]
  constructor
  · rintro ⟨⟨m, q⟩, h⟩
    exact ⟨m.base, q, Request.needs_of_inquiry? h⟩
  · rintro ⟨source, q, h⟩
    obtain ⟨m, hm, -⟩ := h.inquiry?
    exact ⟨(m, q), hm⟩

/-- The completion has to ask for its answer. -/
def MustAsk (settings : Settings) (cache : Cache.Labels) (r : Request) (now : Millis) : Prop :=
  ∃ source q, r.Needs settings source q ∧ ¬cache.Fresh ⟨settings.cacheLifetime⟩ now source q

/-- **A completion makes one request if it has to ask, and none otherwise.** -/
theorem Follows.requests (h : s.Follows settings) (fetch : Fetch.Fetcher σ) (r : Request)
    (now later : Millis) (w : σ) (sent : List Exchange) :
    let sent' := (s.complete (Fetch.recording fetch) now r (w, sent) later).2.2.2
    (MustAsk settings s.cache r now ∧ ∃ e, sent' = sent ++ [e]) ∨
      (¬MustAsk settings s.cache r now ∧ sent' = sent) := by
  -- what is needed, if anything, is the one thing that is looked up
  have hneeds : ∀ {source q}, r.Needs settings source q →
      ∃ m, r.inquiry? settings = some (m, q) ∧ m.base = source := fun h => h.inquiry?
  rcases complete_cases h (Fetch.recording fetch) now later r (w, sent) with
    ⟨hnone, hdone⟩ | ⟨m, q, hsome, ⟨values, hread, hdone⟩ | ⟨hread, hdone⟩⟩
  · refine Or.inr ⟨?_, by rw [hdone]⟩
    rintro ⟨source, q, hq, -⟩
    obtain ⟨m, hm, -⟩ := hneeds hq
    exact absurd (hnone.symm.trans hm) (by simp)
  · refine Or.inr ⟨?_, by rw [hdone]⟩
    rintro ⟨source, p, hp, hstale⟩
    obtain ⟨m', hm', rfl⟩ := hneeds hp
    obtain ⟨rfl, rfl⟩ := Prod.mk.inj (Option.some.inj (hsome.symm.trans hm'))
    exact hstale ((h.lasts.fresh_iff now m.base q).mpr ⟨values, hread⟩)
  · refine Or.inl ⟨⟨m.base, q, Request.needs_of_inquiry? hsome, ?_⟩, _, by rw [hdone]; rfl⟩
    intro hfresh
    obtain ⟨values, hvalues⟩ := (h.lasts.fresh_iff now m.base q).mp hfresh
    exact absurd (hread.symm.trans hvalues) (by simp)

/-- Any call but a completion leaves the client and the counters alone. -/
theorem perform_silent (fetch : Fetch.Fetcher σ) (s : Session) (w : σ) (c : Call)
    (hc : ∀ r now later, c ≠ .complete r now later) :
    (perform fetch (s, w) c).2 = w ∧
      (perform fetch (s, w) c).1.cache.counters = s.cache.counters := by
  cases c with
  | complete r now later => exact absurd rfl (hc r now later)
  | lint text tree => exact ⟨rfl, rfl⟩
  | begin => exact ⟨rfl, rfl⟩
  | clearCache => exact ⟨rfl, Cache.Labels.counters_forget s.cache .all⟩
  | clearNames source => exact ⟨rfl, Cache.Labels.counters_forget s.cache (.names _)⟩
  | clearValues source label => exact ⟨rfl, Cache.Labels.counters_forget s.cache (.values _ _)⟩

/-- **The counters account for every call and every request.** After any calls, the reads are the
completions that needed an answer, those without a fresh finding are the requests, and the stores
are the requests that brought a list. The next completion makes one request if it has to ask, and
none otherwise. No other call makes a request or counts. -/
theorem calls_accounted (settings : Settings) (fetch : Fetch.Fetcher σ) (w : σ)
    (calls : List Call) :
    let st := run settings fetch w calls
    let counters := st.1.cache.counters
    let sent := st.2.2
    (counters.hits + counters.misses + counters.staleHits =
        UInt64.ofNat (calls.countP (Call.inquires settings)) ∧
      counters.misses + counters.staleHits = UInt64.ofNat sent.length ∧
      counters.stores = UInt64.ofNat (sent.countP Exchange.bringsList)) ∧
    (∀ r now later,
      (Call.inquires settings (.complete r now later) = true ↔
        ∃ source q, r.Needs settings source q) ∧
      let sent' := (perform (Fetch.recording fetch) st (.complete r now later)).2.2
      (MustAsk settings st.1.cache r now ∧ ∃ e, sent' = sent ++ [e]) ∨
        (¬MustAsk settings st.1.cache r now ∧ sent' = sent)) ∧
    ∀ c, (∀ r now later, c ≠ .complete r now later) →
      Call.inquires settings c = false ∧
      let st' := perform (Fetch.recording fetch) st c
      st'.2.2 = sent ∧ st'.1.cache.counters = counters := by
  intro st counters sent
  have h := accounts_run settings fetch w calls
  refine ⟨⟨h.reads, h.failures, h.stores⟩, fun r now later => ⟨inquires_iff .., ?_⟩, fun c hc => ?_⟩
  · exact h.follows.requests fetch r now later st.2.1 sent
  · obtain ⟨hsame, hcounters⟩ := perform_silent (Fetch.recording fetch) st.1 st.2 c hc
    refine ⟨?_, congrArg Prod.snd hsame, hcounters⟩
    cases c with
    | complete r now later => exact absurd rfl (hc r now later)
    | _ => rfl

/-- Four completions of an open brace: the second one is answered by the cache, the third one comes
after a clear, and the last one after the lifetime. -/
example :
    let fetch : Fetch.Fetcher Unit := fun _ _ w =>
      (.ok "\x7b\"status\":\"success\",\"data\":[\"job\"]\x7d", w)
    let complete (now : Millis) : Call := .complete ⟨['{'], 1, none, false⟩ now now
    let s := (run { Settings.standard with source := some "http://loki" } fetch ()
      [complete 0, complete 5, .clearCache, complete 6, complete 400000]).1
    s.cache.counters = ⟨1, 2, 1, 3⟩ := by
  decide

end Session

end LogQL
