import LogQL.Proofs.Cache.Counting
import LogQL.Proofs.Labels.Answers

/-!
# Inquiries that fail

An inquiry that fails leaves no trace but for one count. Whatever the reason is, a failure of the
client, a body that is no JSON or no reply, or a status that means that there is no answer
(`Cause`), the only thing that the inquiry did to the cache was to read it.

That this holds for the rest of the run, too, is a statement about two runs: one with the inquiry,
and one in which it never began. The moves are the same, but those of the inquiry itself are left
out and later inquiries have smaller numbers (`Move.without`). Since reads do not depend on the
counters, the two runs go side by side, in the relation `Without`: the clocks agree, the caches are
alike, and the other inquiries are the same in both, with all that they sent and were answered. The
moves of the failed inquiry may come at any time and in between those of others.
-/

namespace LogQL.Labels

open Cache (Question Entry Finding)

/-! ## Causes -/

/-- Why a request that came out like this brings no list. -/
inductive Cause : Except Fetch.Failure String → Failure → Prop where
  | fetch (failure : Fetch.Failure) : Cause (.error failure) (.fetch failure)
  | notJson {body : String} : Json.read? body = none → Cause (.ok body) .malformed
  | noReply {body : String} {v : Json} :
      Json.read? body = some v → reply? v = none → Cause (.ok body) .malformed
  | status {body : String} {v : Json} {word : String} {data : List String} :
      Json.read? body = some v → reply? v = some (some word, data) → word ≠ "success" →
      Cause (.ok body) (.status word)

/-- **A reply is no list just when there is a cause**, and it says which. -/
theorem replyOf_eq_error_iff {outcome : Except Fetch.Failure String} {failure : Failure} :
    replyOf outcome = .error failure ↔ Cause outcome failure := by
  constructor
  · intro h
    cases outcome with
    | error cause =>
        obtain rfl := Except.error.inj h
        exact .fetch cause
    | ok body =>
        rw [replyOf, readReply] at h
        cases hv : Json.read? body with
        | none =>
            rw [hv] at h
            obtain rfl := Except.error.inj h
            exact .notJson hv
        | some v =>
            rw [hv, Option.bind_some] at h
            cases hr : reply? v with
            | none =>
                rw [hr] at h
                obtain rfl := Except.error.inj h
                exact .noReply hv hr
            | some r =>
                obtain ⟨status, data⟩ := r
                rw [hr] at h
                cases status with
                | none => exact absurd h (by simp)
                | some word =>
                    dsimp only at h
                    split at h
                    · exact absurd h (by simp)
                    · rename_i hword
                      obtain rfl := Except.error.inj h
                      exact .status hv hr hword
  · intro h
    cases h with
    | fetch cause => rfl
    | notJson hv => rw [replyOf, readReply, hv]; rfl
    | noReply hv hr => rw [replyOf, readReply, hv, Option.bind_some, hr]
    | status hv hr hword =>
        rw [replyOf, readReply, hv, Option.bind_some, hr]
        exact if_neg hword

/-! ## One inquiry -/

/-- A list has come of it. -/
def Stage.hasList : Stage → Bool
  | .replied (.ok _) | .answered (.ok _) => true
  | _ => false

/-- A list that has come of an inquiry stays. -/
theorem Inquiry.Next.hasList {x y : Inquiry} (h : x.Next y) (hy : y.stage.hasList = false) :
    x.stage.hasList = false := by
  cases h with
  | stay => exact hy
  | send hdue outcome => rw [hdue]; rfl
  | @settle reply hreply =>
      rw [hreply]
      cases reply with
      | error failure => rfl
      | ok values => exact absurd hy (by simp [answerOf, Except.map, Stage.hasList])

/-- The move in a run without the inquiry of this number, if it is not one of its own. -/
def Move.without (k : Nat) : Move → Option Move
  | .send i outcome => if i = k then none else some (.send (if i < k then i else i - 1) outcome)
  | .settle i => if i = k then none else some (.settle (if i < k then i else i - 1))
  | m => some m

namespace Traffic

variable {k : Nat} {found : Finding (List String)} {full bare : Traffic} {x y : Inquiry} {i : Nat}

/-- The second run goes as the first one does without the inquiry with this number. The cache of the
first one has been read once more, with this finding. -/
structure Without (k : Nat) (found : Finding (List String)) (full bare : Traffic) : Prop where
  now : bare.now = full.now
  cache : bare.cache.Alike full.cache
  counters : full.cache.counters = bare.cache.counters.read found
  inquiries : bare.inquiries = full.inquiries.eraseIdx k
  known : k < full.inquiries.length

/-! ## Numbers in the two runs -/

theorem Without.getElem? (h : Without k found full bare) (hi : i ≠ k) :
    bare.inquiries[if i < k then i else i - 1]? = full.inquiries[i]? := by
  rw [h.inquiries, List.getElem?_eraseIdx]
  split
  · rfl
  · have hlt : k < i := by omega
    have hsub : i - 1 + 1 = i := by omega
    rw [if_neg (by omega), hsub]

theorem Without.set (h : Without k found full bare) (hi : i ≠ k) (y : Inquiry) :
    bare.inquiries.set (if i < k then i else i - 1) y = (full.inquiries.set i y).eraseIdx k := by
  rw [h.inquiries]
  split
  · rename_i hlt
    rw [List.eraseIdx_set_gt hlt]
  · have hlt : k < i := by omega
    rw [List.eraseIdx_set_lt hlt]

/-! ## The first move -/

/-- Where the cache cannot answer, the run with the inquiry has read the cache, and no more. -/
theorem without_ask {w : Traffic} {address : String} {options : Fetch.Options} {q : Question}
    (h : (w.cache.read w.now (trimBase address) q).1 = none) :
    Without w.inquiries.length (w.cache.find w.now (trimBase address) q)
      (w.step (.ask address options q)) w := by
  rw [step_ask_due h]
  refine ⟨rfl, Cache.Labels.alike_read .., rfl, ?_, ?_⟩
  · rw [List.eraseIdx_append_of_length_le (Nat.le_refl _), Nat.sub_self]
    exact (List.append_nil _).symm
  · simp

/-! ## Every later move -/

theorem Without.ask (h : Without k found full bare) (address : String) (options : Fetch.Options)
    (q : Question) :
    Without k found (full.step (.ask address options q)) (bare.step (.ask address options q)) := by
  obtain ⟨hsame, halike⟩ := h.cache.read bare.now (trimBase address) q
  have hcounters : (full.cache.read full.now (trimBase address) q).2.counters =
      (bare.cache.read bare.now (trimBase address) q).2.counters.read found := by
    simp only [Cache.Labels.counters_read]
    rw [h.counters, ← h.now, h.cache.find, Cache.Counters.read_read]
  have hinquiries : ∀ y, bare.inquiries ++ [y] = (full.inquiries ++ [y]).eraseIdx k := by
    intro y
    rw [h.inquiries, List.eraseIdx_append_of_lt_length h.known]
  have hknown : ∀ y : Inquiry, k < (full.inquiries ++ [y]).length := by
    intro y
    have := h.known
    rw [List.length_append]
    omega
  rw [h.now] at hsame halike
  cases hread : (full.cache.read full.now (trimBase address) q).1 with
  | some values =>
      rw [hread] at hsame
      rw [step_ask_fresh hread, step_ask_fresh (h.now ▸ hsame.symm)]
      exact ⟨h.now, h.now ▸ halike, hcounters, hinquiries _, hknown _⟩
  | none =>
      rw [hread] at hsame
      rw [step_ask_due hread, step_ask_due (h.now ▸ hsame.symm)]
      exact ⟨h.now, h.now ▸ halike, hcounters, hinquiries _, hknown _⟩

theorem Without.send (h : Without k found full bare) (hi : i ≠ k)
    (outcome : Except Fetch.Failure String) :
    Without k found (full.step (.send i outcome))
      (bare.step (.send (if i < k then i else i - 1) outcome)) := by
  rcases step_send_cases full i outcome with ⟨x, hx, hdue, he⟩ | he
  · rw [he, step_send_due ((h.getElem? hi).trans hx) hdue]
    exact ⟨h.now, h.cache, h.counters, h.set hi _, by simpa using h.known⟩
  rcases step_send_cases bare (if i < k then i else i - 1) outcome with ⟨x, hx, hdue, he'⟩ | he'
  · rw [he', step_send_due ((h.getElem? hi).symm.trans hx) hdue]
    exact ⟨h.now, h.cache, h.counters, h.set hi _, by simpa using h.known⟩
  · rw [he, he']
    exact h

/-- What a reply does to the caches of the two runs. -/
theorem Without.keep (h : Without k found full bare) (y : Inquiry)
    (reply : Except Failure (List String)) :
    (keep y bare.now bare.cache reply).Alike (keep y full.now full.cache reply) ∧
      (keep y full.now full.cache reply).counters =
        (keep y bare.now bare.cache reply).counters.read found := by
  cases reply with
  | error failure => exact ⟨h.cache, h.counters⟩
  | ok values =>
      simp only [Labels.keep, Cache.Labels.counters_store]
      rw [h.counters, h.now, Cache.Counters.read_stored]
      exact ⟨h.cache.store full.now y.remote.base y.question values, rfl⟩

theorem Without.settled (h : Without k found full bare) (hi : i ≠ k)
    {reply : Except Failure (List String)} (hx : full.inquiries[i]? = some x)
    (hreply : x.stage = .replied reply) :
    Without k found (full.step (.settle i))
      (bare.step (.settle (if i < k then i else i - 1))) := by
  obtain ⟨halike, hcounters⟩ := h.keep x reply
  rw [step_settle_replied hx hreply, step_settle_replied ((h.getElem? hi).trans hx) hreply]
  exact ⟨h.now, halike, hcounters, h.set hi _, by simpa using h.known⟩

theorem Without.settle (h : Without k found full bare) (hi : i ≠ k) :
    Without k found (full.step (.settle i))
      (bare.step (.settle (if i < k then i else i - 1))) := by
  rcases step_settle_cases full i with ⟨x, reply, hx, hreply, -⟩ | ⟨-, he⟩
  · exact h.settled hi hx hreply
  rcases step_settle_cases bare (if i < k then i else i - 1) with
    ⟨x, reply, hx, hreply, -⟩ | ⟨-, he'⟩
  · exact h.settled hi ((h.getElem? hi).symm.trans hx) hreply
  · rw [he, he']
    exact h

theorem Without.forget (h : Without k found full bare) (c : Cache.Clear) :
    Without k found (full.step (.forget c)) (bare.step (.forget c)) := by
  refine ⟨h.now, h.cache.forget c, ?_, h.inquiries, h.known⟩
  show (full.cache.forget c).counters = (bare.cache.forget c).counters.read found
  rw [Cache.Labels.counters_forget, Cache.Labels.counters_forget, h.counters]

/-! ## The moves of the inquiry itself -/

theorem Without.send_self (h : Without k found full bare) (outcome : Except Fetch.Failure String) :
    Without k found (full.step (.send k outcome)) bare := by
  rcases step_send_cases full k outcome with ⟨x, -, -, he⟩ | he
  · rw [he]
    refine ⟨h.now, h.cache, h.counters, ?_, by simpa using h.known⟩
    rw [h.inquiries]
    exact List.eraseIdx_set_eq.symm
  · rw [he]
    exact h

/-- A reply that is no list is not stored. -/
theorem Without.settle_self (h : Without k found full bare)
    (hy : (full.step (.settle k)).inquiries[k]? = some y) (hfailed : y.stage.hasList = false) :
    Without k found (full.step (.settle k)) bare := by
  rcases step_settle_cases full k with ⟨x, reply, hx, hreply, he⟩ | ⟨-, he⟩
  · obtain ⟨failure, rfl⟩ : ∃ failure, reply = .error failure := by
      rw [he, List.getElem?_set_self h.known] at hy
      obtain rfl := Option.some.inj hy
      cases reply with
      | error failure => exact ⟨failure, rfl⟩
      | ok values => exact absurd hfailed (by simp [answerOf, Except.map, Stage.hasList])
    rw [he]
    refine ⟨h.now, h.cache, h.counters, ?_, by simpa using h.known⟩
    rw [h.inquiries]
    exact List.eraseIdx_set_eq.symm
  · rw [he]
    exact h

/-! ## Two runs -/

/-- The two runs go side by side as long as no list comes of the inquiry. -/
theorem Without.step (h : Without k found full bare) (m : Move)
    (hy : (full.step m).inquiries[k]? = some y) (hfailed : y.stage.hasList = false) :
    Without k found (full.step m) ((m.without k).elim bare bare.step) := by
  cases m with
  | ask address options q => exact h.ask address options q
  | send i outcome =>
      by_cases hi : i = k
      · rw [Move.without, if_pos hi, hi]
        exact h.send_self outcome
      · rw [Move.without, if_neg hi]
        exact h.send hi outcome
  | settle i =>
      by_cases hi : i = k
      · subst hi
        rw [Move.without, if_pos rfl]
        exact h.settle_self hy hfailed
      · rw [Move.without, if_neg hi]
        exact h.settle hi
  | forget c => exact h.forget c
  | setClock now => exact ⟨rfl, h.cache, h.counters, h.inquiries, h.known⟩

/-- An inquiry that begins has the next number, and keeps it. -/
theorem exists_inquiry (w : Traffic) (address : String) (options : Fetch.Options) (q : Question)
    (after : List Move) :
    ∃ x, (after.foldl step (w.step (.ask address options q))).inquiries[w.inquiries.length]? =
      some x := by
  obtain ⟨x, hx⟩ : ∃ x,
      (w.step (.ask address options q)).inquiries[w.inquiries.length]? = some x := by
    cases hread : (w.cache.read w.now (trimBase address) q).1 with
    | some values => exact ⟨_, inquiry_ask_fresh options hread⟩
    | none => exact ⟨_, inquiry_ask_due options hread⟩
  obtain ⟨y, hy, -⟩ := foldl_step_keeps (P := fun _ => True) (fun _ _ => trivial) after hx trivial
  exact ⟨y, hy⟩

/-- **A run in which no list comes of an inquiry is a run without it.** -/
theorem without_run {w : Traffic} {address : String} {options : Fetch.Options} {q : Question}
    (after : List Move)
    (hx : (after.foldl step (w.step (.ask address options q))).inquiries[w.inquiries.length]? =
      some x) (hfailed : x.stage.hasList = false) :
    Without w.inquiries.length (w.cache.find w.now (trimBase address) q)
      (after.foldl step (w.step (.ask address options q)))
      ((after.filterMap (Move.without w.inquiries.length)).foldl step w) := by
  induction after using List.reverseRecOn generalizing x with
  | nil =>
      refine without_ask ?_
      cases hread : (w.cache.read w.now (trimBase address) q).1 with
      | none => rfl
      | some values =>
          -- the cache would have answered with a list
          rw [List.foldl_nil, inquiry_ask_fresh options hread] at hx
          obtain rfl := Option.some.inj hx
          exact absurd hfailed (by simp [Stage.hasList])
  | append_singleton after m ih =>
      rw [List.foldl_concat] at hx ⊢
      obtain ⟨x', hx'⟩ := exists_inquiry w address options q after
      obtain ⟨y, hy, hnext⟩ := step_next m hx'
      obtain rfl := Option.some.inj (hx.symm.trans hy)
      -- there was no list before the last move either, so the runs went side by side up to it
      have h := (ih hx' (hnext.hasList hfailed)).step m hx hfailed
      rw [List.filterMap_append, List.foldl_append]
      cases hm : m.without w.inquiries.length with
      | none =>
          rw [hm] at h
          rwa [List.filterMap_cons_none hm]
      | some m' =>
          rw [hm] at h
          rwa [List.filterMap_cons_some hm]

/-- An inquiry that fails made one request, and the failure says what came of it. -/
theorem cause_of_failed {w : Traffic} {address : String} {options : Fetch.Options} {q : Question}
    {after : List Move} {failure : Failure}
    (hx : (after.foldl step (w.step (.ask address options q))).inquiries[w.inquiries.length]? =
      some x) (hfailed : x.stage = .answered (.error failure)) :
    (w.cache.read w.now (trimBase address) q).1 = none ∧
      ∃ outcome, x.sent = [x.exchange outcome] ∧ Cause outcome failure := by
  cases hread : (w.cache.read w.now (trimBase address) q).1 with
  | some values =>
      have hsame := foldl_step_answered after (inquiry_ask_fresh options hread) rfl
      obtain rfl := Option.some.inj (hx.symm.trans hsame)
      exact absurd hfailed (by simp)
  | none =>
      refine ⟨rfl, ?_⟩
      obtain ⟨y, hy, hvia⟩ := foldl_step_keeps (P := Inquiry.ViaServer) Inquiry.ViaServer.next after
        (inquiry_ask_due options hread) (.due rfl rfl)
      obtain rfl := Option.some.inj (hx.symm.trans hy)
      obtain ⟨outcome, hsent, hanswer⟩ := hvia.of_answered hfailed
      refine ⟨outcome, hsent, replyOf_eq_error_iff.mp ?_⟩
      cases hreply : replyOf outcome with
      | ok values => exact absurd hanswer (by simp [hreply, answerOf, Except.map])
      | error cause =>
          rw [hreply] at hanswer
          rw [Except.error.inj hanswer]

end Traffic

/-! ## Asking without other moves in between -/

namespace Remote

variable {σ : Type} {fetch : Fetch.Fetcher σ} {r : Remote} {now later : Millis}
  {cache : Cache.Labels} {q : Question} {s : σ} {failure : Failure}

/-- A question fails just when the cache cannot answer it and there is a cause. -/
theorem ask_eq_error_iff :
    (r.ask fetch now q cache s later).1 = .error failure ↔
      (cache.read now r.base q).1 = none ∧
        Cause (fetch (r.address q) r.options s).1 failure := by
  cases hread : (cache.read now r.base q).1 with
  | some values =>
      rw [ask_of_some hread]
      simp
  | none =>
      rw [ask_of_none hread, ← replyOf_eq_error_iff]
      cases replyOf (fetch (r.address q) r.options s).1 <;> simp [answerOf, Except.map]

/-- All that is left of a failure is the read. -/
theorem cache_of_ask_eq_error (h : (r.ask fetch now q cache s later).1 = .error failure) :
    (r.ask fetch now q cache s later).2.1 = (cache.read now r.base q).2 := by
  obtain ⟨hread, hcause⟩ := ask_eq_error_iff.mp h
  rw [ask_of_none hread, replyOf_eq_error_iff.mpr hcause]
  rfl

end Remote

/-- A read that gives nothing has missed, or found stale data. -/
theorem counted_of_read_eq_none {cache : Cache.Labels} {now : Millis} {source : String}
    {q : Question} (h : (cache.read now source q).1 = none) (c : Cache.Counters) :
    c.read (cache.find now source q) = c.miss ∨ c.read (cache.find now source q) = c.stale := by
  have hfound : (cache.find now source q).data? = none := h
  cases hfind : cache.find now source q with
  | fresh data => rw [hfind] at hfound; exact absurd hfound (by simp [Finding.data?])
  | stale => exact Or.inr rfl
  | missing => exact Or.inl rfl

/-- What is left of a question that was put to the cache and to the server at once, and failed. -/
structure Harmless (cache cache' : Cache.Labels) (now : Millis) : Prop where
  /-- Every entry is as it was, fresh or stale or not there. -/
  held : ∀ source p, cache'.held? source p = cache.held? source p
  /-- One more read has missed or found stale data; nothing else was counted. -/
  counted : cache'.counters = cache.counters.miss ∨ cache'.counters = cache.counters.stale
  /-- Whatever is done to the cache from now on is replied to as it would have been. -/
  replies : ∀ actions,
    Cache.replies Cache.Clocked.perform ⟨cache', now⟩ actions =
      Cache.replies Cache.Clocked.perform ⟨cache, now⟩ actions

/--
**A failure leaves no trace but one count.** A question fails when the cache has nothing fresh and
there is a cause, and the answer tells that cause; who does not want to know of it gets no values.
The entries are as they were. This is also so when the question is an inquiry in some run, whose
moves come at any time: everything else in that run is as it is without the inquiry.
-/
theorem failure_leaves_no_trace {σ : Type} (fetch : Fetch.Fetcher σ) (w : Traffic) (s : σ)
    (address : String) (options : Fetch.Options) (q : Question) (later : Millis) :
    let r := Remote.ofAddress address options
    let asked := r.ask fetch w.now q w.cache s later
    let k := w.inquiries.length
    (∀ failure, asked.1 = .error failure ↔
      (w.cache.read w.now r.base q).1 = none ∧
        Cause (fetch (r.address q) r.options s).1 failure) ∧
    (∀ failure, asked.1 = .error failure →
      valuesOf asked.1 = [] ∧ Harmless w.cache asked.2.1 w.now) ∧
    ∀ (after : List Move) (x : Inquiry) (failure : Failure),
      let full := after.foldl Traffic.step (w.step (.ask address options q))
      let bare := (after.filterMap (Move.without k)).foldl Traffic.step w
      full.inquiries[k]? = some x → x.stage = .answered (.error failure) →
      (∃ outcome, x.sent = [x.exchange outcome] ∧ Cause outcome failure) ∧
        x.values? = some [] ∧
        bare.now = full.now ∧ bare.inquiries = full.inquiries.eraseIdx k ∧
        Harmless bare.cache full.cache full.now := by
  intro r asked k
  refine ⟨fun failure => Remote.ask_eq_error_iff, ?_, ?_⟩
  · intro failure hfailed
    have hread := (Remote.ask_eq_error_iff.mp hfailed).1
    have hcache : asked.2.1 = _ := Remote.cache_of_ask_eq_error hfailed
    have halike := Cache.Labels.alike_read w.cache w.now r.base q
    rw [← hcache] at halike
    refine ⟨by rw [hfailed]; rfl, halike.held?, ?_, halike.replies w.now⟩
    rw [hcache, Cache.Labels.counters_read]
    exact counted_of_read_eq_none hread _
  · intro after x failure full bare hx hstage
    obtain ⟨hread, hcause⟩ := Traffic.cause_of_failed hx hstage
    have h : Traffic.Without k _ full bare := Traffic.without_run after hx (by rw [hstage]; rfl)
    refine ⟨hcause, by rw [Inquiry.values?, hstage]; rfl, h.now, h.inquiries,
      h.cache.held?, ?_, h.cache.replies full.now⟩
    rw [h.counters]
    exact counted_of_read_eq_none hread _

/-- A list that is as old as the lifetime. -/
def staleTraffic : Traffic :=
  ⟨10, (Cache.Labels.empty ⟨10⟩).store 0 "http://loki" .names ["job"], [], []⟩

/-- A stale list outlives the failure to get a new one. -/
theorem failure_keeps_stale :
    let r := Remote.ofAddress "http://loki/" default
    let asked := r.ask (respond (.error (.status 503 ""))) staleTraffic.now .names
      staleTraffic.cache [] 20
    asked.1 = .error (.fetch (.status 503 "")) ∧
      asked.2.1.held? "http://loki" .names = some ⟨["job"], 0⟩ ∧
      asked.2.1.counters = staleTraffic.cache.counters.stale := by
  intro r asked
  have hbase : r.base = "http://loki" := by decide
  have hread : (staleTraffic.cache.read staleTraffic.now r.base .names).1 = none := by
    rw [hbase]
    decide
  obtain ⟨hfails, hharmless, -⟩ := failure_leaves_no_trace (respond (.error (.status 503 "")))
    staleTraffic [] "http://loki/" default .names 20
  have hfailed := (hfails (.fetch (.status 503 ""))).mpr ⟨hread, .fetch _⟩
  obtain ⟨-, h⟩ := hharmless _ hfailed
  refine ⟨hfailed, (h.held _ _).trans (by decide), ?_⟩
  have hcache : asked.2.1 = _ := Remote.cache_of_ask_eq_error hfailed
  rw [hcache, Cache.Labels.counters_read, hbase]
  rfl

end LogQL.Labels
