import LogQL.Proofs.Labels.Provenance

/-!
# Who answers an inquiry

An inquiry is answered by the cache exactly when the last success for its question to its source is
still fresh at the time it begins, and then by the list of that success, without any request. In
every other case one request is made, to the address of the question and with the options of the
source, and the answer is what comes of it; if that is a list, it is the last success from then on.

All of this is read off the history, so it is said in terms of what callers have seen. The source is
named by its address without the slashes at its end, which is all that the cache knows of it.
-/

namespace LogQL.Labels

open Cache (Question Entry)

/-! ## What asking a server comes to -/

namespace Remote

variable {σ : Type} {fetch : Fetch.Fetcher σ} {r : Remote} {now later : Millis}
  {cache : Cache.Labels} {q : Question} {s : σ}

/-- Where the cache can answer, the server is not asked. -/
theorem ask_of_some {values : List String} (h : (cache.read now r.base q).1 = some values) :
    r.ask fetch now q cache s later =
      (.ok ⟨values, .cache⟩, (cache.read now r.base q).2, s) := by
  unfold ask
  rw [← Prod.eta (cache.read now r.base q), h]

/-- **Where the cache cannot answer, one request is made**, and its reply is taken in. -/
theorem ask_of_none (h : (cache.read now r.base q).1 = none) :
    let requested := fetch (r.address q) r.options s
    r.ask fetch now q cache s later =
      (answerOf (replyOf requested.1),
        keep ⟨r, q, [], .due⟩ later (cache.read now r.base q).2 (replyOf requested.1),
        requested.2) := by
  intro requested
  unfold ask
  rw [← Prod.eta (cache.read now r.base q), h]
  dsimp only
  rw [request_eq, settle_eq ⟨r, q, [], .due⟩]

end Remote

/-- What goes via the server is not answered by the cache. -/
theorem Inquiry.ViaServer.not_cache {x : Inquiry} (h : x.ViaServer) (values : List String) :
    x.stage ≠ .answered (.ok ⟨values, .cache⟩) := by
  intro hstage
  obtain ⟨outcome, -, hanswer⟩ := h.of_answered hstage
  have horigin := (answerOf_eq_ok hanswer.symm).2
  exact absurd horigin (by simp)

namespace Traffic

variable {w : Traffic} {x : Inquiry} {i : Nat} {lifetime : Lifetime} {source : String}
  {q : Question} {e : Entry (List String)} {address : String}

/-- The last success for the question to the source, where it is still fresh. -/
def Available (lifetime : Lifetime) (w : Traffic) (source : String) (q : Question)
    (e : Entry (List String)) : Prop :=
  LastSuccess w.history source q e ∧
    w.now.toNat - e.storedAt.toNat < lifetime.millis.toNat

/-- **Reading the cache finds the last success while it is fresh.** -/
theorem read_eq_some_iff (h : Kept lifetime w.cache w.history) {values : List String} :
    (w.cache.read w.now source q).1 = some values ↔
      ∃ e, Available lifetime w source q e ∧ e.data = values := by
  rw [h.lasts.read_eq_some_iff]
  constructor
  · rintro ⟨e, hheld, hage, hdata⟩
    exact ⟨e, ⟨(h.held source q e).mp hheld, hage⟩, hdata⟩
  · rintro ⟨e, ⟨hlast, hage⟩, hdata⟩
    exact ⟨e, (h.held source q e).mpr hlast, hage, hdata⟩

theorem read_eq_none (h : Kept lifetime w.cache w.history)
    (hnone : ¬ ∃ e, Available lifetime w source q e) :
    (w.cache.read w.now source q).1 = none := by
  refine Option.eq_none_iff_forall_ne_some.mpr fun values hread => hnone ?_
  obtain ⟨e, he, -⟩ := (read_eq_some_iff h).mp hread
  exact ⟨e, he⟩

/-! ## The inquiry that a move begins -/

theorem inquiry_ask_fresh (options : Fetch.Options) {values : List String}
    (h : (w.cache.read w.now (trimBase address) q).1 = some values) :
    (w.step (.ask address options q)).inquiries[w.inquiries.length]? =
      some ⟨.ofAddress address options, q, [], .answered (.ok ⟨values, .cache⟩)⟩ := by
  rw [step_ask_fresh h]
  exact List.getElem?_concat_length

theorem inquiry_ask_due (options : Fetch.Options)
    (h : (w.cache.read w.now (trimBase address) q).1 = none) :
    (w.step (.ask address options q)).inquiries[w.inquiries.length]? =
      some ⟨.ofAddress address options, q, [], .due⟩ := by
  rw [step_ask_due h]
  exact List.getElem?_concat_length

theorem run_append_cons (lifetime : Lifetime) (now : Millis) (before after : List Move)
    (m : Move) :
    run lifetime now (before ++ m :: after) =
      after.foldl step ((run lifetime now before).step m) := by
  simp [run]

/-- An inquiry that is answered keeps its answer. -/
theorem foldl_step_answered (moves : List Move) (hx : w.inquiries[i]? = some x)
    {answer : Except Failure Answer} (hanswer : x.stage = .answered answer) :
    (moves.foldl step w).inquiries[i]? = some x := by
  obtain ⟨y, hy, rfl⟩ := foldl_step_keeps (P := (· = x))
    (fun hyx hnext => (hnext.eq_of_answered (hyx ▸ hanswer)).trans hyx) moves hx rfl
  exact hy

/-- What becomes of an inquiry that begins where its question can be answered from the cache. -/
theorem fate_of_available (h : Kept lifetime w.cache w.history)
    (he : Available lifetime w (trimBase address) q e) (options : Fetch.Options)
    (after : List Move) :
    (after.foldl step (w.step (.ask address options q))).inquiries[w.inquiries.length]? =
      some ⟨.ofAddress address options, q, [], .answered (.ok ⟨e.data, .cache⟩)⟩ :=
  foldl_step_answered after (inquiry_ask_fresh options ((read_eq_some_iff h).mpr ⟨e, he, rfl⟩)) rfl

/-- What becomes of any other inquiry. -/
theorem fate_of_not_available (h : Kept lifetime w.cache w.history)
    (hnone : ¬ ∃ e, Available lifetime w (trimBase address) q e) (options : Fetch.Options)
    (after : List Move) :
    ∃ x, (after.foldl step (w.step (.ask address options q))).inquiries[w.inquiries.length]? =
        some x ∧
      x.remote = .ofAddress address options ∧ x.question = q ∧ x.ViaServer := by
  refine foldl_step_keeps
    (P := fun x => x.remote = .ofAddress address options ∧ x.question = q ∧ x.ViaServer) ?_ after
    (inquiry_ask_due options (read_eq_none h hnone)) ⟨rfl, rfl, .due rfl rfl⟩
  rintro x y ⟨hr, hq, hvia⟩ hnext
  exact ⟨hnext.remote_eq.trans hr, hnext.question_eq.trans hq, hvia.next hnext⟩

/-! ## Successes -/

/-- A list that is taken in is returned as the answer of the server, and it is the last success. -/
theorem settle_ok (hx : w.inquiries[i]? = some x) {values : List String}
    (hreply : x.stage = .replied (.ok values)) :
    LastSuccess (w.step (.settle i)).history x.remote.base x.question ⟨values, w.now⟩ ∧
      (w.step (.settle i)).inquiries[i]? =
        some { x with stage := .answered (.ok ⟨values, .remote⟩) } := by
  obtain ⟨hi, -⟩ := List.getElem?_eq_some_iff.mp hx
  rw [step_settle_replied hx hreply]
  refine ⟨lastSuccess_snoc.mpr (Or.inl ⟨i, rfl⟩), ?_⟩
  exact List.getElem?_set_self hi

/-- **A success is the answer of an inquiry at that source for that question**, and it is what the
body of the one request of that inquiry says. -/
theorem origin_of_lastSuccess {now : Millis} {moves : List Move}
    (h : LastSuccess (run lifetime now moves).history source q e) :
    ∃ (i : Nat) (x : Inquiry) (body : String),
      (run lifetime now moves).inquiries[i]? = some x ∧
      x.remote.base = source ∧ x.question = q ∧
      x.sent = [x.exchange (.ok body)] ∧ readReply body = .ok e.data ∧
      x.stage = .answered (.ok ⟨e.data, .remote⟩) := by
  have hheld := ((kept_run lifetime now moves).held source q e).mpr h
  obtain ⟨before, m, after, rfl, ⟨i, x, body, rfl, hx, hbase, hq, hsent, hread, hstage, -⟩, -⟩ :=
    (held?_run_iff lifetime now moves source q e).mp hheld
  -- the inquiry whose reply was stored is answered by that move, and stays as it is
  refine ⟨i, { x with stage := .answered (.ok ⟨e.data, .remote⟩) }, body, ?_, hbase, hq, hsent,
    hread, rfl⟩
  rw [run_append_cons]
  exact foldl_step_answered after (settle_ok hx hstage).2 rfl

/-! ## Asking all at once -/

/-- A request or a reply of an inquiry that is answered changes nothing. -/
theorem step_answered (hx : w.inquiries[i]? = some x) {answer : Except Failure Answer}
    (hanswer : x.stage = .answered answer) (outcome : Except Fetch.Failure String) :
    (w.step (.send i outcome)).step (.settle i) = w := by
  rw [step_send_idle hx (by simp [hanswer]), step_settle_idle hx (by simp [hanswer])]

/-- **Without anything in between, the three moves of an inquiry are `Remote.ask`.** -/
theorem steps_eq_ask (w : Traffic) (address : String) (options : Fetch.Options) (q : Question)
    (outcome : Except Fetch.Failure String) :
    let r := Remote.ofAddress address options
    let asked := r.ask (respond outcome) w.now q w.cache []
    let w' := [.ask address options q, .send w.inquiries.length outcome,
      .settle w.inquiries.length].foldl step w
    w'.cache = asked.2.1 ∧
      w'.inquiries = w.inquiries ++ [⟨r, q, asked.2.2, .answered asked.1⟩] := by
  intro r asked w'
  cases hread : (w.cache.read w.now (trimBase address) q).1 with
  | some values =>
      -- the inquiry is answered by its first move, so the others find nothing to do
      have hw' : w' = w.step (.ask address options q) :=
        step_answered (inquiry_ask_fresh options hread) rfl outcome
      have hasked : asked = _ := Remote.ask_of_some hread
      rw [hw', hasked, step_ask_fresh hread]
      exact ⟨rfl, rfl⟩
  | none =>
      have hasked : asked = _ := Remote.ask_of_none hread
      have hsent := step_send_due (inquiry_ask_due options hread) rfl outcome
      have hreplied : ((w.step (.ask address options q)).step
            (.send w.inquiries.length outcome)).inquiries[w.inquiries.length]? =
          some ⟨r, q, [⟨r.address q, r.options, outcome⟩], .replied (replyOf outcome)⟩ := by
        rw [hsent, Inquiry.send_eq]
        obtain ⟨hlt, -⟩ := List.getElem?_eq_some_iff.mp (inquiry_ask_due options hread)
        exact List.getElem?_set_self hlt
      have hw' : w' = _ := step_settle_replied hreplied rfl
      rw [hw', hasked, hsent, step_ask_due hread]
      refine ⟨rfl, ?_⟩
      simp [respond, r]

theorem answered_of_settle (hx : w.inquiries[i]? = some x)
    {reply : Except Failure (List String)} (hreply : x.stage = .replied reply) :
    ∃ y answer, (w.step (.settle i)).inquiries[i]? = some y ∧ y.stage = .answered answer := by
  obtain ⟨hi, -⟩ := List.getElem?_eq_some_iff.mp hx
  rw [step_settle_replied hx hreply]
  exact ⟨_, _, List.getElem?_set_self hi, rfl⟩

/-- However far an inquiry has come, it can be brought to an answer. -/
theorem answered_of_send_settle (hx : w.inquiries[i]? = some x)
    (outcome : Except Fetch.Failure String) :
    ∃ y answer, ((w.step (.send i outcome)).step (.settle i)).inquiries[i]? = some y ∧
      y.stage = .answered answer := by
  cases hstage : x.stage with
  | due =>
      obtain ⟨hi, -⟩ := List.getElem?_eq_some_iff.mp hx
      rw [step_send_due hx hstage, Inquiry.send_eq]
      exact answered_of_settle (List.getElem?_set_self hi) rfl
  | replied reply =>
      rw [step_send_idle hx (by simp [hstage])]
      exact answered_of_settle hx hstage
  | answered answer => exact ⟨x, answer, by rw [step_answered hx hstage, hx], hstage⟩

/-! ## The fate of an inquiry -/

/-- What the inquiry `x` with the number `i`, which began in `w`, has come to in `w'`. -/
structure Fate (lifetime : Lifetime) (w w' : Traffic) (i : Nat) (x : Inquiry) : Prop where
  /-- The cache answers just when the last success is fresh, and with its list. -/
  fromCache_iff : ∀ values, x.stage = .answered (.ok ⟨values, .cache⟩) ↔
    ∃ e, Available lifetime w x.remote.base x.question e ∧ e.data = values
  /-- What the cache can answer takes no request, and the caller has the list at once. -/
  found : ∀ e, Available lifetime w x.remote.base x.question e →
    x.sent = [] ∧ x.values? = some e.data
  /-- Anything else takes one request. -/
  asked : (¬ ∃ e, Available lifetime w x.remote.base x.question e) → x.ViaServer
  /-- A caller who does not want to know of failures gets what comes of that request, too. -/
  values : (¬ ∃ e, Available lifetime w x.remote.base x.question e) →
    ∀ values, x.values? = some values →
      ∃ outcome, x.sent = [x.exchange outcome] ∧ values = valuesOf (answerOf (replyOf outcome))
  /-- A list is what a reply said, to the same question to the same source. -/
  origin : ∀ answer, x.stage = .answered (.ok answer) →
    ∃ (j : Nat) (y : Inquiry) (body : String), w'.inquiries[j]? = some y ∧
      y.remote.base = x.remote.base ∧ y.question = x.question ∧
      y.sent = [y.exchange (.ok body)] ∧ readReply body = .ok answer.values
  /-- A list that is taken in is the last success, and the answer of the server. -/
  settled : ∀ values, x.stage = .replied (.ok values) →
    LastSuccess (w'.step (.settle i)).history x.remote.base x.question ⟨values, w'.now⟩ ∧
      (w'.step (.settle i)).inquiries[i]? =
        some { x with stage := .answered (.ok ⟨values, .remote⟩) }
  /-- An answer is never out of reach. -/
  ends : ∀ outcome, ∃ y answer,
    ((w'.step (.send i outcome)).step (.settle i)).inquiries[i]? = some y ∧
      y.stage = .answered answer

theorem answered_of_values? {values : List String} (h : x.values? = some values) :
    ∃ answer, x.stage = .answered answer ∧ values = valuesOf answer := by
  unfold Inquiry.values? at h
  cases hstage : x.stage with
  | due => simp [hstage] at h
  | replied _ => simp [hstage] at h
  | answered answer => exact ⟨answer, rfl, by simpa [hstage] using h.symm⟩

/-- The cache has one list at most to answer with. -/
theorem Available.data_eq (h : Kept lifetime w.cache w.history) {d : Entry (List String)}
    (hd : Available lifetime w source q d) (he : Available lifetime w source q e) :
    d.data = e.data := by
  have hread := (read_eq_some_iff h).mpr ⟨d, hd, rfl⟩
  rw [(read_eq_some_iff h).mpr ⟨e, he, rfl⟩] at hread
  exact (Option.some.inj hread).symm

/-- An inquiry that the cache answers ends at once, with the list of a success in the past. -/
theorem fate_of_fresh {now : Millis} {before : List Move}
    (he : Available lifetime (run lifetime now before) (trimBase address) q e)
    (options : Fetch.Options) (after : List Move) :
    let w := run lifetime now before
    let w' := run lifetime now (before ++ .ask address options q :: after)
    let x : Inquiry := ⟨.ofAddress address options, q, [], .answered (.ok ⟨e.data, .cache⟩)⟩
    w'.inquiries[w.inquiries.length]? = some x ∧ Fate lifetime w w' w.inquiries.length x := by
  intro w w' x
  have hkept : Kept lifetime w.cache w.history := kept_run lifetime now before
  have hrun : w' = after.foldl step (w.step (.ask address options q)) := run_append_cons ..
  have hx : w'.inquiries[w.inquiries.length]? = some x := by
    rw [hrun]
    exact fate_of_available hkept he options after
  refine ⟨hx, ?_, fun d hd => ⟨rfl, congrArg some (he.data_eq hkept hd)⟩,
    fun hnone => absurd ⟨e, he⟩ hnone, fun hnone => absurd ⟨e, he⟩ hnone, ?_,
    fun values => settle_ok hx, answered_of_send_settle hx⟩
  · intro values
    constructor
    · intro h
      exact ⟨e, he, by simpa [x] using h⟩
    · rintro ⟨d, hd, rfl⟩
      rw [hd.data_eq hkept he]
  · intro answer h
    obtain rfl : (⟨e.data, .cache⟩ : Answer) = answer := by simpa [x] using h
    obtain ⟨j, y, body, hy, hbase, hq, hsent, hread, hstage⟩ := origin_of_lastSuccess he.1
    -- that inquiry was answered before, so the rest of the run leaves it alone
    refine ⟨j, y, body, ?_, hbase, hq, hsent, hread⟩
    rw [hrun]
    exact foldl_step_answered (.ask address options q :: after) hy hstage

/-- An inquiry that goes via the server gets what its reply says. -/
theorem fate_of_viaServer {w' : Traffic}
    (hnone : ¬ ∃ e, Available lifetime w x.remote.base x.question e)
    (hx : w'.inquiries[i]? = some x) (hvia : x.ViaServer) : Fate lifetime w w' i x := by
  refine ⟨?_, fun e he => absurd ⟨e, he⟩ hnone, fun _ => hvia, ?_, ?_,
    fun values => settle_ok hx, answered_of_send_settle hx⟩
  · intro values
    constructor
    · intro h
      exact absurd h (hvia.not_cache values)
    · rintro ⟨e, he, -⟩
      exact absurd ⟨e, he⟩ hnone
  · intro _ values h
    obtain ⟨answer, hanswer, rfl⟩ := answered_of_values? h
    obtain ⟨outcome, hsent, rfl⟩ := hvia.of_answered hanswer
    exact ⟨outcome, hsent, rfl⟩
  · intro answer h
    obtain ⟨outcome, hsent, hreply⟩ := hvia.of_answered h
    obtain ⟨body, rfl, hread⟩ := replyOf_eq_ok (answerOf_eq_ok hreply.symm).1
    exact ⟨i, x, body, hx, rfl, rfl, hsent, hread⟩

/--
**Who answers an inquiry.** An inquiry begins somewhere in a run: after `before`, ahead of `after`.
Whatever `after` is, its fate is settled by the last success for its question to its source at the
time it begins. Where nothing comes in between, all this is what `Remote.ask` does.
-/
theorem inquiry_fate (lifetime : Lifetime) (now : Millis) (before after : List Move)
    (address : String) (options : Fetch.Options) (q : Question) :
    let w := run lifetime now before
    let w' := run lifetime now (before ++ .ask address options q :: after)
    let r := Remote.ofAddress address options
    (∃ x, w'.inquiries[w.inquiries.length]? = some x ∧ x.remote = r ∧ x.question = q ∧
      Fate lifetime w w' w.inquiries.length x) ∧
    ∀ outcome,
      let asked := r.ask (respond outcome) w.now q w.cache []
      let finished := [.ask address options q, .send w.inquiries.length outcome,
        .settle w.inquiries.length].foldl step w
      finished.cache = asked.2.1 ∧
        finished.inquiries = w.inquiries ++ [⟨r, q, asked.2.2, .answered asked.1⟩] := by
  intro w w' r
  refine ⟨?_, steps_eq_ask w address options q⟩
  by_cases havailable : ∃ e, Available lifetime w (trimBase address) q e
  · obtain ⟨e, he⟩ := havailable
    obtain ⟨hx, hfate⟩ := fate_of_fresh he options after
    exact ⟨_, hx, rfl, rfl, hfate⟩
  · obtain ⟨x, hx, hr, rfl, hvia⟩ := fate_of_not_available
      (kept_run lifetime now before) havailable options after
    rw [← run_append_cons] at hx
    have hbase : x.remote.base = trimBase address := by rw [hr]; rfl
    exact ⟨x, hx, hr, rfl, fate_of_viaServer (hbase ▸ havailable) hx hvia⟩

/-- A list is no longer fresh when it is as old as the lifetime; a failure does not replace it, so
a clock that is set back makes it fresh again. -/
example :
    (run ⟨10⟩ 0
      [.ask "http://loki" default .names, .send 0 (.ok "\x7b\"data\":[\"job\"]\x7d"), .settle 0,
        .setClock 10, .ask "http://loki" default .names, .send 1 (.error (.status 503 "")),
        .settle 1, .setClock 9, .ask "http://loki" default .names]).inquiries.map
          Inquiry.values? =
      [some ["job"], some [], some ["job"]] := by
  cbv

end Traffic

end LogQL.Labels
