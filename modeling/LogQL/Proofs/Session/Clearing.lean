import LogQL.Proofs.Cache.Clearing
import LogQL.Proofs.Session.Accounts
import LogQL.Proofs.Text.Trailing

/-!
# Clears that name the source of a session

The address of a source and the address that a clear names are written by different people, so they
may differ in the slashes at their ends. Those are dropped from either before the cache sees it, and
all that counts is that this is done in the same way on both sides: a clear of names that missed its
key would leave old names in place, and one of values would be taken for a clear of a source that is
not known, and empty the shelves of all other sources.

What a clear does is a fact about the cache in any state, so it does not matter what happened
before. What comes afterwards matters in one way only. An entry that is gone stays gone until a list
is stored for its key again, and a question without an entry goes to the server. Since calls may
overlap, what comes before and after is not a list of calls but one of accesses to the session
(`Touch`), in whatever order; calls come to such accesses (`run_eq_touched`).
-/

namespace LogQL

open Cache (Question Clear Entry)
open Labels (Remote trimBase)

/-! ## Slashes at the end -/

namespace Labels

/-- These addresses are the same but for the slashes at their ends. -/
def SameBase (a b : String) : Prop :=
  ∃ body m n, a.toList = body ++ List.replicate m '/' ∧ b.toList = body ++ List.replicate n '/'

theorem trimBase_of_toList {a : String} {body : List Char} {n : Nat}
    (h : a.toList = body ++ List.replicate n '/') :
    trimBase a = String.ofList (Text.dropTrailing (· == '/') body) := by
  have hslash : ∀ c ∈ List.replicate n '/', (c == '/') = true := by simp
  rw [trimBase, h, Text.dropTrailing_append hslash]

/-- An address is what is left of it, and slashes. -/
theorem toList_eq_trimBase_append (a : String) :
    ∃ n, a.toList = (trimBase a).toList ++ List.replicate n '/' := by
  refine ⟨(Text.trailing (· == '/') a.toList).length, ?_⟩
  have hslashes : Text.trailing (· == '/') a.toList =
      List.replicate (Text.trailing (· == '/') a.toList).length '/' :=
    List.eq_replicate_of_mem fun c hc => by simpa using Text.of_mem_trailing hc
  rw [← hslashes, trimBase, String.toList_ofList, Text.dropTrailing_append_trailing]

/-- **Dropping the slashes tells the same addresses from others.** -/
theorem trimBase_eq_iff {a b : String} : trimBase a = trimBase b ↔ SameBase a b := by
  constructor
  · intro h
    obtain ⟨m, hm⟩ := toList_eq_trimBase_append a
    obtain ⟨n, hn⟩ := toList_eq_trimBase_append b
    exact ⟨(trimBase a).toList, m, n, hm, h ▸ hn⟩
  · rintro ⟨body, m, n, ha, hb⟩
    rw [trimBase_of_toList ha, trimBase_of_toList hb]

end Labels

/-! ## Clears of a cache -/

namespace Cache.Labels

variable {c : Cache.Labels} {a : String}

theorem held?_clearNames (c : Cache.Labels) (source : Option String) (s : String) (q : Question) :
    (c.clearNames source).held? s q =
      if q = .names ∧ source.all (· == s) then none else c.held? s q := by
  obtain ⟨known, hknows⟩ := c.exists_knows
  refine (held?_forget hknows (.names source) s q).trans ?_
  cases q with
  | names => by_cases hs : source.all (· == s) = true <;> simp [Clear.covers, hs]
  | values l => simp [Clear.covers]

theorem held?_clearValues_names (c : Cache.Labels) (source label : Option String) (s : String) :
    (c.clearValues source label).held? s .names = c.held? s .names := by
  obtain ⟨known, hknows⟩ := c.exists_knows
  exact held?_clearValues hknows source label s .names

/-- The named values are gone, whether or not the source is known. -/
theorem held?_clearValues_eq_none (c : Cache.Labels) (a : String) {label : Option String}
    {l : String} (hl : label.all (· == l) = true) :
    (c.clearValues (some a) label).held? a (.values l) = none := by
  obtain ⟨known, hknows⟩ := c.exists_knows
  rw [held?_clearValues hknows, if_pos]
  cases label with
  | none => simp [Clear.covers]
  | some l' =>
      have hl : l' = l := by simpa using hl
      simp [Clear.covers, hl]

/-- **A clear of values that names a source with values is confined to it**, and to the label that
it names. -/
theorem held?_clearValues_of_holds {l' : String} {e : Entry (List String)}
    (h : c.held? a (.values l') = some e) {label : Option String} {s : String} {q : Question}
    (hother : s ≠ a ∨ ∃ l, label = some l ∧ q ≠ .values l) :
    (c.clearValues (some a) label).held? s q = c.held? s q := by
  obtain ⟨known, hknows⟩ := c.exists_knows
  -- a source with values is known, so the clear does not fall back to all sources
  have hmem : a ∈ known := hknows.contains_iff.mp (contains_of_held? h)
  rw [held?_clearValues hknows, if_neg]
  cases q with
  | names => simp [Clear.covers]
  | values p =>
      rcases hother with hs | ⟨l, rfl, hl⟩
      · cases label <;> simp [Clear.covers, hmem, Ne.symm hs]
      · have hl : l ≠ p := fun he => hl (he ▸ rfl)
        simp [Clear.covers, hmem, hl]

end Cache.Labels

namespace Session

variable {settings : Settings} {s : Session} {address source : String} {q : Question}

/-! ## Accesses -/

/-- One access to a session. Nothing comes between its beginning and its end. -/
inductive Touch where
  /-- A token is drawn. -/
  | begin
  | read (now : Millis) (source : String) (q : Question)
  | store (now : Millis) (source : String) (q : Question) (values : List String)
  | forget (c : Clear)
  deriving DecidableEq, Repr, Inhabited

/-- The session after an access. -/
def touch (s : Session) : Touch → Session
  | .begin => s.begin.2
  | .read now source q => { s with cache := (s.cache.read now source q).2 }
  | .store now source q values => { s with cache := s.cache.store now source q values }
  | .forget c => { s with cache := s.cache.forget c }

/-- A session with the source of its settings after these accesses. -/
def touched (settings : Settings) (touches : List Touch) : Session :=
  touches.foldl touch (ofSettings settings)

/-- A list is stored for the question to the source. -/
def Touch.Stores (source : String) (q : Question) (t : Touch) : Prop :=
  ∃ now values, t = .store now source q values

theorem Follows.touch (h : s.Follows settings) (t : Touch) : (s.touch t).Follows settings := by
  cases t with
  | begin => exact h.begin
  | read now source q => exact h.cache (h.lasts.read now source q)
  | store now source q values => exact h.cache (h.lasts.store now source q values)
  | forget c =>
      obtain ⟨known, hknows⟩ := s.cache.exists_knows
      exact h.cache (h.lasts.forget hknows c)

theorem Follows.clearNames (h : s.Follows settings) (source : Option String) :
    (s.clearNames source).Follows settings := h.touch (.forget (.names (source.map trimBase)))

theorem Follows.clearValues (h : s.Follows settings) (source label : Option String) :
    (s.clearValues source label).Follows settings :=
  h.touch (.forget (.values (source.map trimBase) label))

theorem Follows.touches (h : s.Follows settings) (touches : List Touch) :
    (touches.foldl Session.touch s).Follows settings := by
  induction touches generalizing s with
  | nil => exact h
  | cons t rest ih => exact ih (h.touch t)

theorem follows_touched (settings : Settings) (touches : List Touch) :
    (touched settings touches).Follows settings :=
  (follows_ofSettings settings).touches touches

/-- Every call comes to accesses. -/
theorem perform_eq_touches {σ : Type} (h : s.Follows settings) (fetch : Fetch.Fetcher σ) (w : σ)
    (c : Call) : ∃ touches : List Touch, (perform fetch (s, w) c).1 = touches.foldl touch s := by
  cases c with
  | lint text tree => exact ⟨[], rfl⟩
  | begin => exact ⟨[.begin], rfl⟩
  | clearCache => exact ⟨[.forget .all], rfl⟩
  | clearNames source => exact ⟨[.forget (.names (source.map trimBase))], rfl⟩
  | clearValues source label => exact ⟨[.forget (.values (source.map trimBase) label)], rfl⟩
  | complete r now later =>
      have hdone : perform fetch (s, w) (.complete r now later) =
          (s.complete fetch now r w later).2 := rfl
      rw [hdone]
      rcases complete_cases h fetch now later r w with
        ⟨-, hdone⟩ | ⟨m, q, -, ⟨values, -, hdone⟩ | ⟨-, hdone⟩⟩
      · exact ⟨[.begin], by rw [hdone]; rfl⟩
      · exact ⟨[.begin, .read now m.base q], by rw [hdone]; rfl⟩
      · -- what the server said is stored only if it is a list
        rw [hdone]
        cases Labels.replyOf (fetch (m.address q) m.options w).1 with
        | error failure => exact ⟨[.begin, .read now m.base q], rfl⟩
        | ok values => exact ⟨[.begin, .read now m.base q, .store later m.base q values], rfl⟩

/-- **Every run of calls comes to accesses.** -/
theorem run_eq_touched {σ : Type} (settings : Settings) (fetch : Fetch.Fetcher σ) (w : σ)
    (calls : List Call) :
    ∃ touches, (run settings fetch w calls).1 = touched settings touches := by
  induction calls using List.reverseRecOn with
  | nil => exact ⟨[], rfl⟩
  | append_singleton calls c ih =>
      obtain ⟨touches, htouches⟩ := ih
      obtain ⟨more, hmore⟩ := perform_eq_touches (accounts_run settings fetch w calls).follows
        (Fetch.recording fetch) (run settings fetch w calls).2 c
      refine ⟨touches ++ more, ?_⟩
      rw [run_snoc, touched, List.foldl_append]
      exact hmore.trans (by rw [htouches]; rfl)

/-! ## Questions without an entry -/

/-- A question is put to the server. The answer is what the reply says, and the client is asked for
nothing else, by a completion neither. -/
structure AsksServer (settings : Settings) (s : Session) (m : Remote) (q : Question) : Prop where
  asked : ∀ {σ : Type} (fetch : Fetch.Fetcher σ) (now later : Millis) (w : σ),
    let requested := fetch (m.address q) m.options w
    (s.ask fetch now q w later).1 = Labels.answerOf (Labels.replyOf requested.1) ∧
      (s.ask fetch now q w later).2.2 = requested.2
  not_cache : ∀ {σ : Type} (fetch : Fetch.Fetcher σ) (now later : Millis) (w : σ)
      (values : List String), (s.ask fetch now q w later).1 ≠ .ok ⟨values, .cache⟩
  completed : ∀ {σ : Type} (fetch : Fetch.Fetcher σ) (now later : Millis) (r : Request) (w : σ),
    r.inquiry? settings = some (m, q) →
      (s.complete fetch now r w later).2.2 = (fetch (m.address q) m.options w).2

/-- What the cache cannot answer goes to the server. -/
theorem Follows.asksServer_of_read (h : s.Follows settings) {m : Remote}
    (hm : s.provider = .remote m) (hread : ∀ now, (s.cache.read now m.base q).1 = none) :
    AsksServer settings s m q := by
  have hasked : ∀ {σ : Type} (fetch : Fetch.Fetcher σ) (now later : Millis) (w : σ),
      let requested := fetch (m.address q) m.options w
      (s.ask fetch now q w later).1 = Labels.answerOf (Labels.replyOf requested.1) ∧
        (s.ask fetch now q w later).2.2 = requested.2 := by
    intro σ fetch now later w requested
    rw [ask_own h.apart_eq, hm, Labels.Provider.ask, Remote.ask_of_none (hread now)]
    exact ⟨rfl, rfl⟩
  refine ⟨hasked, ?_, ?_⟩
  · intro σ fetch now later w values hcache
    rw [(hasked fetch now later w).1] at hcache
    exact absurd (Labels.answerOf_eq_ok hcache).2 (by simp)
  · intro σ fetch now later r w hinquiry
    rw [complete_asks h, hinquiry]
    dsimp only
    rw [Remote.ask_of_none (hread now)]

/-- **A question without an entry goes to the server.** -/
theorem Follows.asksServer (h : s.Follows settings) (hsource : settings.source = some address)
    (hnone : s.cache.held? (trimBase address) q = none) :
    AsksServer settings s (.ofAddress address settings.fetchOptions) q := by
  have hm : s.provider = .remote (.ofAddress address settings.fetchOptions) := by
    rw [h.provider_eq, providerOf, hsource]
  refine h.asksServer_of_read hm fun now => ?_
  rw [h.lasts.data?_read]
  show ((s.cache.held? (trimBase address) q).filter _).map _ = none
  rw [hnone]
  rfl

/-- An entry that is gone stays gone until a list is stored for it. -/
theorem held?_touch (h : s.cache.held? source q = none) {t : Touch} (ht : ¬ t.Stores source q) :
    (s.touch t).cache.held? source q = none := by
  cases t with
  | begin => exact h
  | read now source' p => exact (Cache.Labels.held?_read ..).trans h
  | store now source' p values =>
      refine (Cache.Labels.held?_store ..).trans ?_
      rw [if_neg]
      · exact h
      · rintro ⟨rfl, rfl⟩
        exact ht ⟨now, values, rfl⟩
  | forget c =>
      -- a clear gives no key an entry, whatever it covers
      obtain ⟨known, hknows⟩ := s.cache.exists_knows
      refine (Cache.Labels.held?_forget hknows c source q).trans ?_
      rw [h, ite_self]

theorem held?_touches (h : s.cache.held? source q = none) {touches : List Touch}
    (ht : ∀ t ∈ touches, ¬ t.Stores source q) :
    (touches.foldl touch s).cache.held? source q = none := by
  induction touches generalizing s with
  | nil => exact h
  | cons t rest ih =>
      exact ih (held?_touch h (ht t List.mem_cons_self)) fun x hx =>
        ht x (List.mem_cons_of_mem _ hx)

/-- The question goes to the server, and still does after any accesses that store no list for
it. -/
def AsksUntilStored (settings : Settings) (s : Session) (m : Remote) (q : Question) : Prop :=
  ∀ later : List Touch, (∀ t ∈ later, ¬ t.Stores m.base q) →
    AsksServer settings (later.foldl touch s) m q

theorem Follows.asksUntilStored (h : s.Follows settings) (hsource : settings.source = some address)
    (hnone : s.cache.held? (trimBase address) q = none) :
    AsksUntilStored settings s (.ofAddress address settings.fetchOptions) q :=
  fun later hlater => (h.touches later).asksServer hsource (held?_touches hnone hlater)

/-! ## Clears -/

section

variable {named : String} {label : Option String}

theorem cache_clearValues (hsame : Labels.SameBase address named) (s : Session)
    (label : Option String) : (s.clearValues (some named) label).cache =
      s.cache.clearValues (some (trimBase address)) label := by
  rw [Labels.trimBase_eq_iff.mpr hsame]
  rfl

theorem Follows.asksUntilStored_names (h : s.Follows settings)
    (hsource : settings.source = some address) (hsame : Labels.SameBase address named) :
    AsksUntilStored settings (s.clearNames (some named))
      (.ofAddress address settings.fetchOptions) .names := by
  refine (h.clearNames (some named)).asksUntilStored hsource ?_
  rw [Labels.trimBase_eq_iff.mpr hsame]
  refine (s.cache.held?_clearNames (some (trimBase named)) (trimBase named) .names).trans ?_
  simp

/-- The label that is named, or any label if none is. -/
theorem Follows.asksUntilStored_values (h : s.Follows settings)
    (hsource : settings.source = some address) (hsame : Labels.SameBase address named) {l : String}
    (hl : label.all (· == l) = true) :
    AsksUntilStored settings (s.clearValues (some named) label)
      (.ofAddress address settings.fetchOptions) (.values l) := by
  refine (h.clearValues (some named) label).asksUntilStored hsource ?_
  rw [cache_clearValues hsame]
  exact s.cache.held?_clearValues_eq_none (trimBase address) hl

/-- What is spared when the source has values. -/
theorem held?_clearValues_spared (hsame : Labels.SameBase address named)
    (hvalues : ∃ l e, s.cache.held? (trimBase address) (.values l) = some e)
    (hother : source ≠ trimBase address ∨ ∃ l, label = some l ∧ q ≠ .values l) :
    (s.clearValues (some named) label).cache.held? source q = s.cache.held? source q := by
  obtain ⟨l, e, hheld⟩ := hvalues
  rw [cache_clearValues hsame]
  exact Cache.Labels.held?_clearValues_of_holds hheld hother

end

/--
**A clear that names the source of a session reaches it**, with any number of slashes at the end,
whatever was done to the session before. What is cleared is asked of the server again until a new
list is stored. If the source has values, a clear of values spares all other sources, and one
that names a label also all else of this one. And a clear of values never touches names, nor a clear
of names values.
-/
theorem clears_reach_source {settings : Settings} {address named : String}
    (hsource : settings.source = some address) (hsame : Labels.SameBase address named)
    (touches : List Touch) :
    let base := trimBase address
    let m := Remote.ofAddress address settings.fetchOptions
    let s := touched settings touches
    let hasValues := ∃ l e, s.cache.held? base (.values l) = some e
    AsksUntilStored settings (s.clearNames (some named)) m .names ∧
    (∀ label,
      AsksUntilStored settings (s.clearValues (some named) (some label)) m (.values label) ∧
      (hasValues → ∀ source q, ¬ (source = base ∧ q = .values label) →
        (s.clearValues (some named) (some label)).cache.held? source q =
          s.cache.held? source q)) ∧
    ((∀ label, AsksUntilStored settings (s.clearValues (some named) none) m (.values label)) ∧
      (hasValues → ∀ source q, source ≠ base →
        (s.clearValues (some named) none).cache.held? source q = s.cache.held? source q)) ∧
    ∀ anyone source label,
      (∀ l, (s.clearValues anyone l).cache.held? source .names = s.cache.held? source .names) ∧
      (s.clearNames anyone).cache.held? source (.values label) =
        s.cache.held? source (.values label) := by
  intro base m s hasValues
  have hs : s.Follows settings := follows_touched settings touches
  refine ⟨hs.asksUntilStored_names hsource hsame, fun label => ⟨?_, ?_⟩, ⟨fun label => ?_, ?_⟩, ?_⟩
  · exact hs.asksUntilStored_values hsource hsame (by simp)
  · intro hvalues source q hother
    refine held?_clearValues_spared hsame hvalues ?_
    by_cases hb : source = base
    · exact Or.inr ⟨label, rfl, fun hq => hother ⟨hb, hq⟩⟩
    · exact Or.inl hb
  · exact hs.asksUntilStored_values hsource hsame rfl
  · intro hvalues source q hother
    exact held?_clearValues_spared hsame hvalues (Or.inl hother)
  · -- names and values stand on shelves of their own, whoever is named
    intro anyone source label
    refine ⟨fun l => s.cache.held?_clearValues_names (anyone.map trimBase) l source, ?_⟩
    refine (s.cache.held?_clearNames (anyone.map trimBase) source (.values label)).trans ?_
    rw [if_neg (by simp)]

/-- Settings in which the address of the source ends in slashes. -/
def slashed : Settings := { Settings.standard with source := some "http://loki//" }

/-- Values of the source and of another one were stored. -/
def twoSources : List Touch :=
  [.store 0 "http://loki" (.values "job") ["api"], .store 0 "http://other" .names ["job"],
    .store 0 "http://other" (.values "job") ["worker"]]

/-- Named with one slash less, the source is cleared, and the other one keeps what it has. -/
theorem clears_reach_source_slashed :
    slashed.source = some "http://loki//" ∧ Labels.SameBase "http://loki//" "http://loki/" ∧
      AsksUntilStored slashed
        ((touched slashed twoSources).clearValues (some "http://loki/") none)
        (.ofAddress "http://loki//" slashed.fetchOptions) (.values "job") ∧
      ((touched slashed twoSources).clearValues (some "http://loki/") none).cache.held?
        "http://other" (.values "job") = some ⟨["worker"], 0⟩ := by
  have hsource : slashed.source = some "http://loki//" := rfl
  have hsame : Labels.SameBase "http://loki//" "http://loki/" :=
    ⟨"http://loki".toList, 2, 1, by decide, by decide⟩
  obtain ⟨-, -, ⟨hcleared, hkept⟩, -⟩ := clears_reach_source hsource hsame twoSources
  refine ⟨hsource, hsame, hcleared "job", ?_⟩
  rw [hkept ⟨"job", ⟨["api"], 0⟩, by decide⟩ "http://other" (.values "job") (by decide)]
  decide

end Session

end LogQL
