import LogQL.Proofs.Labels.Traffic

/-!
# The cache as a function of the history

What the cache holds can be read off what callers have seen. The entry for a source and a question
is the last list that a server gave in answer to that question, unless a clear that covers it came
later (`LastSuccess`); its time is the time of that answer. Failures and answers of the cache itself
leave no trace, and answers to other questions or from other sources none there.

The invariant is `Kept`, of a cache and a history. It has to include the known sources, since what a
clear covers depends on them; those too can be read off the history (`knownAfter`). Each kind of
happening keeps the invariant, so every run does (`kept_run`).
-/

namespace LogQL.Labels

open Cache (Question Clear Entry)

/-! ## What stands in a sequence -/

section

variable {α : Type} {makes undoes : List α → α → Prop} {l : List α} {x : α}

/-- Something was made, and nothing that came later undid it. Both may depend on what came
before. -/
def Standing (makes undoes : List α → α → Prop) (l : List α) : Prop :=
  ∃ before x after, l = before ++ x :: after ∧ makes before x ∧
    ∀ between y rest, after = between ++ y :: rest → ¬ undoes (before ++ x :: between) y

theorem not_standing_nil : ¬ Standing makes undoes [] := by
  rintro ⟨before, x, after, he, -, -⟩
  exact absurd he (by simp)

theorem Standing.snoc (h : Standing makes undoes l) (hx : ¬ undoes l x) :
    Standing makes undoes (l ++ [x]) := by
  obtain ⟨before, s, after, rfl, hs, hlast⟩ := h
  refine ⟨before, s, after ++ [x], by simp, hs, fun between y rest he => ?_⟩
  rcases List.eq_nil_or_concat rest with rfl | ⟨rest, z, rfl⟩
  · -- what follows is the new one
    obtain ⟨rfl, hy⟩ := List.append_inj' he rfl
    obtain rfl : x = y := by simpa using hy
    exact hx
  · refine hlast between y rest ?_
    have he' : after ++ [x] = (between ++ y :: rest) ++ [z] := by simpa using he
    exact (List.append_inj' he' rfl).1

/-- **What stands after one thing more is what that makes, or what stood and it does not undo.** -/
theorem standing_snoc :
    Standing makes undoes (l ++ [x]) ↔ makes l x ∨ ¬ undoes l x ∧ Standing makes undoes l := by
  constructor
  · rintro ⟨before, s, after, he, hs, hlast⟩
    rcases List.eq_nil_or_concat after with rfl | ⟨after, z, rfl⟩
    · obtain ⟨rfl, hx⟩ := List.append_inj' he rfl
      obtain rfl : x = s := by simpa using hx
      exact Or.inl hs
    · have he' : l ++ [x] = (before ++ s :: after) ++ [z] := by simpa using he
      obtain ⟨rfl, hx⟩ := List.append_inj' he' rfl
      obtain rfl : x = z := by simpa using hx
      refine Or.inr ⟨hlast after x [] (by simp), before, s, after, rfl, hs, ?_⟩
      intro between y rest hafter
      exact hlast between y (rest ++ [x]) (by simp [hafter])
  · rintro (hs | ⟨hx, h⟩)
    · exact ⟨l, x, [], rfl, hs, fun _ _ _ h => absurd h (by simp)⟩
    · exact h.snoc hx

end

/-! ## Successes in a history -/

/-- The server gave the list of this entry, at its time, in answer to the question. -/
def Happening.Succeeds (source : String) (q : Question) (e : Entry (List String))
    (x : Happening) : Prop :=
  ∃ i, x = .answered i source q (.ok ⟨e.data, .remote⟩) e.storedAt

/-- The known sources after something happened. -/
def Happening.learn (known : Finset String) : Happening → Finset String
  | .answered _ source q (.ok ⟨_, .remote⟩) _ => q.learn known source
  | .answered .. => known
  | .cleared c => c.unlearn known

/-- The sources that are known after a history. -/
def knownAfter (history : List Happening) : Finset String := history.foldl Happening.learn ∅

/-- What comes after this history puts an end to an entry for the question: another success, or a
clear that covers it. -/
def Happening.Overrides (history : List Happening) (source : String) (q : Question)
    (x : Happening) : Prop :=
  (∃ e, x.Succeeds source q e) ∨
    ∃ c, x = .cleared c ∧ c.covers (knownAfter history) source q = true

/-- The last success for the question to the source, if no clear that covers it came later. -/
def LastSuccess (history : List Happening) (source : String) (q : Question)
    (e : Entry (List String)) : Prop :=
  Standing (fun _ x => x.Succeeds source q e) (fun before x => x.Overrides before source q) history

variable {history : List Happening} {source : String} {q : Question} {e : Entry (List String)}
  {x : Happening}

theorem knownAfter_snoc (history : List Happening) (x : Happening) :
    knownAfter (history ++ [x]) = x.learn (knownAfter history) := by
  simp [knownAfter]

theorem succeeds_answered_iff {i : Nat} {s : String} {p : Question} {data : List String}
    {time : Millis} :
    (Happening.answered i source q (.ok ⟨data, .remote⟩) time).Succeeds s p e ↔
      (source = s ∧ q = p) ∧ e = ⟨data, time⟩ := by
  constructor
  · rintro ⟨j, hj⟩
    cases hj
    exact ⟨⟨rfl, rfl⟩, rfl⟩
  · rintro ⟨⟨rfl, rfl⟩, rfl⟩
    exact ⟨i, rfl⟩

theorem overrides_answered_iff {i : Nat} {s : String} {p : Question} {data : List String}
    {time : Millis} :
    (Happening.answered i source q (.ok ⟨data, .remote⟩) time).Overrides history s p ↔
      source = s ∧ q = p := by
  simp [Happening.Overrides, succeeds_answered_iff]

/-- An answer that no server gave is no success. -/
theorem not_succeeds_answered {i : Nat} {s : String} {p : Question}
    {answer : Except Failure Answer} (hanswer : ∀ data, answer ≠ .ok ⟨data, .remote⟩)
    {time : Millis} : ¬ (Happening.answered i source q answer time).Succeeds s p e := by
  rintro ⟨j, hj⟩
  cases hj
  exact hanswer e.data rfl

theorem not_succeeds_cleared {c : Clear} : ¬ (Happening.cleared c).Succeeds source q e := by
  rintro ⟨i, hi⟩
  exact absurd hi (by simp)

theorem overrides_cleared_iff {c : Clear} :
    (Happening.cleared c).Overrides history source q ↔
      c.covers (knownAfter history) source q = true := by
  simp [Happening.Overrides, not_succeeds_cleared]

theorem lastSuccess_snoc :
    LastSuccess (history ++ [x]) source q e ↔
      x.Succeeds source q e ∨ ¬ x.Overrides history source q ∧ LastSuccess history source q e :=
  standing_snoc

/-! ## The cache and the history -/

/-- The cache holds the last successes of the history. -/
structure Kept (lifetime : Lifetime) (cache : Cache.Labels) (history : List Happening) : Prop where
  lasts : cache.Lasts lifetime
  knows : cache.Knows (knownAfter history)
  held : ∀ source q e, cache.held? source q = some e ↔ LastSuccess history source q e

variable {lifetime : Lifetime} {cache : Cache.Labels} {now : Millis}

theorem kept_empty (lifetime : Lifetime) : Kept lifetime (.empty lifetime) [] where
  lasts := Cache.Labels.lasts_empty lifetime
  knows := Cache.Labels.knows_empty lifetime
  held := by
    intro source q e
    rw [Cache.Labels.held?_empty]
    exact ⟨fun h => absurd h (by simp), fun h => absurd h not_standing_nil⟩

theorem Kept.read (h : Kept lifetime cache history) (now : Millis) (source : String)
    (q : Question) : Kept lifetime (cache.read now source q).2 history where
  lasts := h.lasts.read now source q
  knows := h.knows.read now source q
  held := by
    intro s p e
    rw [Cache.Labels.held?_read]
    exact h.held s p e

/-- An answer that no server gave leaves the cache as it is. -/
theorem Kept.quiet (h : Kept lifetime cache history) (i : Nat) (source : String) (q : Question)
    {answer : Except Failure Answer} (hanswer : ∀ data, answer ≠ .ok ⟨data, .remote⟩)
    (time : Millis) : Kept lifetime cache (history ++ [.answered i source q answer time]) where
  lasts := h.lasts
  knows := by
    rw [knownAfter_snoc]
    cases answer with
    | error _ => exact h.knows
    | ok answer =>
        obtain ⟨data, origin⟩ := answer
        cases origin with
        | cache => exact h.knows
        | remote => exact absurd rfl (hanswer data)
  held := by
    intro s p e
    rw [h.held, lastSuccess_snoc]
    simp [not_succeeds_answered hanswer, Happening.Overrides]

/-- An answer of a server is stored. -/
theorem Kept.stored (h : Kept lifetime cache history) (i : Nat) (now : Millis) (source : String)
    (q : Question) (data : List String) :
    Kept lifetime (cache.store now source q data)
      (history ++ [.answered i source q (.ok ⟨data, .remote⟩) now]) where
  lasts := h.lasts.store now source q data
  knows := by
    rw [knownAfter_snoc]
    exact h.knows.store now source q data
  held := by
    intro s p e
    -- for its own key the answer is the last success, and no other key is overridden
    rw [Cache.Labels.held?_store, lastSuccess_snoc, succeeds_answered_iff,
      overrides_answered_iff, ← h.held]
    by_cases hkey : source = s ∧ q = p
    · simp [hkey, eq_comm]
    · simp [hkey]

theorem Kept.cleared (h : Kept lifetime cache history) (c : Clear) :
    Kept lifetime (cache.forget c) (history ++ [.cleared c]) where
  lasts := h.lasts.forget h.knows c
  knows := by
    rw [knownAfter_snoc]
    exact h.knows.forget c
  held := by
    intro s p e
    rw [Cache.Labels.held?_forget h.knows, lastSuccess_snoc, overrides_cleared_iff, ← h.held]
    by_cases hc : c.covers (knownAfter history) s p = true
    · simp [hc, not_succeeds_cleared]
    · simp [hc, not_succeeds_cleared]

/-- Taking in a reply keeps the invariant, whatever the reply is. -/
theorem Kept.settled (h : Kept lifetime cache history) (i : Nat) (now : Millis) (y : Inquiry)
    (reply : Except Failure (List String)) :
    Kept lifetime (keep y now cache reply)
      (history ++ [.answered i y.remote.base y.question (answerOf reply) now]) := by
  cases reply with
  | ok data => exact h.stored i now y.remote.base y.question data
  | error failure => exact h.quiet i y.remote.base y.question (fun _ he => by cases he) now

namespace Traffic

variable {w : Traffic} {i : Nat} {y : Inquiry} {data : List String} {time : Millis}

theorem kept_step (h : Kept lifetime w.cache w.history) (m : Move) :
    Kept lifetime (w.step m).cache (w.step m).history := by
  cases m with
  | ask address options q =>
      have hread := h.read w.now (trimBase address) q
      cases hfound : (w.cache.read w.now (trimBase address) q).1 with
      | some values =>
          -- the answer of the cache itself leaves no trace
          rw [step_ask_fresh hfound]
          exact hread.quiet _ _ _ (fun _ he => by cases he) _
      | none =>
          rw [step_ask_due hfound]
          exact hread
  | send j outcome =>
      rcases step_send_cases w j outcome with ⟨y, -, -, he⟩ | he <;> rw [he] <;> exact h
  | settle j =>
      rcases step_settle_cases w j with ⟨y, reply, -, -, he⟩ | ⟨-, he⟩
      · rw [he]
        exact h.settled j w.now y reply
      · rw [he]
        exact h
  | forget c => exact h.cleared c
  | setClock now => exact h

/-- **After any run the cache holds the last successes of its history.** -/
theorem kept_run (lifetime : Lifetime) (now : Millis) (moves : List Move) :
    Kept lifetime (run lifetime now moves).cache (run lifetime now moves).history := by
  induction moves using List.reverseRecOn with
  | nil => exact kept_empty lifetime
  | append_singleton moves m ih =>
      rw [run_snoc]
      exact kept_step ih m

end Traffic

end LogQL.Labels
