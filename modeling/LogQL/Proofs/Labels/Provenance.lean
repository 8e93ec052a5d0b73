import LogQL.Proofs.Labels.History

/-!
# Where the entries of the cache come from

Whatever is under way at the same time, an entry of the cache is the list that one reply gave, to a
request that an inquiry of this run made at that source for that question, with the time at which
the reply was taken in. It is there as long as no other reply to the same question is taken in and
no clear covers it (`LastStore`), and not longer.

The reason is that one move does only one thing to the entries (`held?_step`): it gives one key an
entry, or a clear takes some away, or all stay as they are. The induction over the run needs the
lives of the inquiries beside it, for they say that a reply comes from the one request of its
inquiry.
-/

namespace LogQL.Labels

open Cache (Question Clear Entry)

variable {x : Inquiry} {i : Nat}

/-- A reply with a list is the body of the one request that was made. -/
theorem Inquiry.body_of_replied {data : List String}
    (hx : x.Regular) (hreply : x.stage = .replied (.ok data)) :
    ∃ body, x.sent = [x.exchange (.ok body)] ∧ readReply body = .ok data := by
  rcases hx with ⟨values, -, hstage⟩ | h
  · rw [hreply] at hstage
    exact absurd hstage (by simp)
  · obtain ⟨outcome, hsent, hok⟩ := h.of_replied hreply
    obtain ⟨body, rfl, hread⟩ := replyOf_eq_ok hok.symm
    exact ⟨body, hsent, hread⟩

namespace Traffic

variable {w : Traffic} {m : Move} {source : String} {q : Question} {e : Entry (List String)}

/-- The move takes in a reply to the question to the source, and this is what it says, now. -/
def Stores (w : Traffic) (m : Move) (source : String) (q : Question) (e : Entry (List String)) :
    Prop :=
  ∃ i x body, m = .settle i ∧ w.inquiries[i]? = some x ∧
    x.remote.base = source ∧ x.question = q ∧
    x.sent = [x.exchange (.ok body)] ∧ readReply body = .ok e.data ∧
    x.stage = .replied (.ok e.data) ∧ e.storedAt = w.now

/-- The move puts an end to an entry for the question to the source: it takes in another reply, or
it is a clear that covers it. -/
def Overrides (w : Traffic) (m : Move) (source : String) (q : Question) : Prop :=
  (∃ e, w.Stores m source q e) ∨
    ∃ c, m = .forget c ∧ c.covers (knownAfter w.history) source q = true

/-- What was stored last for the question to the source, if no clear that covers it came later. -/
def LastStore (lifetime : Lifetime) (now : Millis) (moves : List Move) (source : String)
    (q : Question) (e : Entry (List String)) : Prop :=
  Standing (fun before m => (run lifetime now before).Stores m source q e)
    (fun before m => (run lifetime now before).Overrides m source q) moves

/-! ## What one move does to the entries -/

theorem not_stores (hm : ∀ i, m ≠ .settle i) : ¬ w.Stores m source q e := by
  rintro ⟨i, -, -, rfl, -⟩
  exact hm i rfl

theorem overrides_settle_iff :
    w.Overrides (.settle i) source q ↔ ∃ e, w.Stores (.settle i) source q e := by
  simp [Overrides]

theorem overrides_forget_iff {c : Clear} :
    w.Overrides (.forget c) source q ↔ c.covers (knownAfter w.history) source q = true := by
  simp [Overrides, not_stores]

/-- What is stored when a reply is taken in. -/
theorem stores_settle_iff (hx : w.inquiries[i]? = some x)
    (hregular : x.Regular) {reply : Except Failure (List String)}
    (hreply : x.stage = .replied reply) :
    w.Stores (.settle i) source q e ↔
      (x.remote.base = source ∧ x.question = q) ∧ reply = .ok e.data ∧ e.storedAt = w.now := by
  constructor
  · rintro ⟨j, y, body, hj, hy, hbase, hq, -, -, hstage, hnow⟩
    obtain rfl := Move.settle.inj hj
    obtain rfl := Option.some.inj (hx.symm.trans hy)
    exact ⟨⟨hbase, hq⟩, Stage.replied.inj (hreply.symm.trans hstage), hnow⟩
  · rintro ⟨⟨hbase, hq⟩, rfl, hnow⟩
    obtain ⟨body, hsent, hread⟩ := x.body_of_replied hregular hreply
    exact ⟨i, x, body, rfl, hx, hbase, hq, hsent, hread, hreply, hnow⟩

/-- Taking in a reply gives its own key an entry if it is a list, and leaves the others alone. -/
theorem held?_keep_iff (hx : w.inquiries[i]? = some x) (hregular : x.Regular)
    {reply : Except Failure (List String)} (hreply : x.stage = .replied reply) :
    (keep x w.now w.cache reply).held? source q = some e ↔
      w.Stores (.settle i) source q e ∨
        ¬ w.Overrides (.settle i) source q ∧ w.cache.held? source q = some e := by
  rw [overrides_settle_iff]
  simp only [stores_settle_iff hx hregular hreply]
  cases reply with
  | error _ => simp [keep]
  | ok data =>
      simp only [keep]
      rw [Cache.Labels.held?_store]
      by_cases hkey : x.remote.base = source ∧ x.question = q
      · rw [if_pos hkey]
        constructor
        · intro he
          obtain rfl := Option.some.inj he
          exact Or.inl ⟨hkey, rfl, rfl⟩
        · rintro (⟨-, hdata, htime⟩ | ⟨hnot, -⟩)
          · rw [Except.ok.inj hdata, ← htime]
          · -- an entry is stored here, so the old one is overridden
            exact absurd ⟨⟨data, w.now⟩, hkey, rfl, rfl⟩ hnot
      · simp [hkey]

/-- **A move stores an entry, or it leaves those that it does not override.** -/
theorem held?_step (hknows : w.cache.Knows (knownAfter w.history))
    (hregular : ∀ (i : Nat) (x : Inquiry), w.inquiries[i]? = some x → x.Regular)
    (m : Move) (s : String) (p : Question) (e : Entry (List String)) :
    (w.step m).cache.held? s p = some e ↔
      w.Stores m s p e ∨ ¬ w.Overrides m s p ∧ w.cache.held? s p = some e := by
  cases m with
  | ask address options q =>
      have hsame : (w.step (.ask address options q)).cache.held? s p = w.cache.held? s p := by
        cases hread : (w.cache.read w.now (trimBase address) q).1 with
        | some values => rw [step_ask_fresh hread]; exact Cache.Labels.held?_read ..
        | none => rw [step_ask_due hread]; exact Cache.Labels.held?_read ..
      rw [hsame]
      simp [Overrides, not_stores]
  | send i outcome =>
      have hsame : (w.step (.send i outcome)).cache = w.cache := by
        rcases step_send_cases w i outcome with ⟨x, -, -, he⟩ | he <;> rw [he]
      rw [hsame]
      simp [Overrides, not_stores]
  | settle i =>
      rcases step_settle_cases w i with ⟨x, reply, hx, hreply, he⟩ | ⟨hidle, he⟩
      · rw [he]
        exact held?_keep_iff hx (hregular i x hx) hreply
      · have hnone : ∀ e, ¬ w.Stores (.settle i) s p e := by
          rintro e ⟨j, x, body, hj, hx, -, -, -, -, hstage, -⟩
          obtain rfl := Move.settle.inj hj
          exact hidle x _ hx hstage
        rw [he, overrides_settle_iff]
        simp [hnone]
  | forget c =>
      rw [overrides_forget_iff]
      show (w.cache.forget c).held? s p = some e ↔ _
      rw [Cache.Labels.held?_forget hknows]
      by_cases hc : c.covers (knownAfter w.history) s p = true
      · simp [hc, not_stores]
      · simp [hc, not_stores]
  | setClock now =>
      show w.cache.held? s p = some e ↔ _
      simp [Overrides, not_stores]

/-- A reply that is taken in goes to its own key, and every other key keeps what it has. -/
theorem held?_of_stores (h : w.Stores m source q e) (s : String) (p : Question) :
    (w.step m).cache.held? s p =
      if source = s ∧ q = p then some e else w.cache.held? s p := by
  obtain ⟨i, x, body, rfl, hx, rfl, rfl, -, -, hstage, htime⟩ := h
  rw [step_settle_replied hx hstage]
  simp only [keep]
  rw [Cache.Labels.held?_store, ← htime]

/-- A failure leaves the whole cache as it is. -/
theorem cache_of_failure (hx : w.inquiries[i]? = some x) {failure : Failure}
    (hreply : x.stage = .replied (.error failure)) : (w.step (.settle i)).cache = w.cache := by
  rw [step_settle_replied hx hreply]
  rfl

/-! ## What a run does to them -/

/-- **After any run the entries are what was stored last.** -/
theorem held?_run_iff (lifetime : Lifetime) (now : Millis) (moves : List Move) (source : String)
    (q : Question) (e : Entry (List String)) :
    (run lifetime now moves).cache.held? source q = some e ↔
      LastStore lifetime now moves source q e := by
  induction moves using List.reverseRecOn with
  | nil =>
      have hnone : (run lifetime now []).cache.held? source q = none :=
        Cache.Labels.held?_empty ..
      rw [hnone]
      exact ⟨fun h => absurd h (by simp), fun h => absurd h not_standing_nil⟩
  | append_singleton moves m ih =>
      rw [run_snoc, held?_step (kept_run lifetime now moves).knows
        (fun i x => regular_run lifetime now moves) m source q e, ih]
      unfold LastStore
      rw [standing_snoc]

/--
**The entries of the cache are accounted for.** After any run, an entry is held just when it is what
was stored last for its source and question: the list that the reply to a request of this run gave,
made at that source for that question, and the time at which the reply was taken in. Storing it
gives its own key that entry and changes no other; a failure changes nothing.
-/
theorem entries_accounted (lifetime : Lifetime) (now : Millis) (moves : List Move) :
    (∀ source q e, (run lifetime now moves).cache.held? source q = some e ↔
      LastStore lifetime now moves source q e) ∧
    (∀ m source q e, (run lifetime now moves).Stores m source q e → ∀ s p,
      ((run lifetime now moves).step m).cache.held? s p =
        if source = s ∧ q = p then some e else (run lifetime now moves).cache.held? s p) ∧
    (∀ i x failure, (run lifetime now moves).inquiries[i]? = some x →
      x.stage = .replied (.error failure) →
      ((run lifetime now moves).step (.settle i)).cache = (run lifetime now moves).cache) :=
  ⟨held?_run_iff lifetime now moves, fun _ _ _ _ => held?_of_stores,
    fun _ _ _ hx hreply => cache_of_failure hx hreply⟩

/-- Of two inquiries that ask the same, the one that is served last has the last word, though it
began first and its reply is older. -/
example :
    (run .default 0
      [.ask "http://loki" default .names, .ask "http://loki/" default .names,
        .send 0 (.ok "\x7b\"data\":[\"old\"]\x7d"), .send 1 (.ok "\x7b\"data\":[\"new\"]\x7d"),
        .settle 1, .setClock 5, .settle 0]).cache.held? "http://loki" .names =
      some ⟨["old"], 5⟩ := by
  cbv

end Traffic

end LogQL.Labels
