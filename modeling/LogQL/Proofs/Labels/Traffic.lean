import LogQL.Labels.Provider
import LogQL.Proofs.Cache.Contents
import Mathlib.Data.List.Induction

/-!
# Inquiries under way at one cache

Several servers may be asked through one cache, each of them several things at a time. An inquiry
takes three steps: the cache is read, the server is asked, its reply is taken in. Nothing holds the
cache in between, so steps of other inquiries, clears and moves of the clock may come at any point.
A run is a list of such moves, in whatever order; a move that is not due does nothing.

Every step is taken by the definition that also answers a question all at once:
`Cache.Labels.read`, `Remote.request` and `Remote.settle`. What the client is asked for is kept with
the inquiry, and what callers see is kept in a history, with the times of the answers; no step
depends on either.

An inquiry that the cache cannot answer has one life (`Inquiry.ViaServer`): nothing is sent until it
sends one request, and its answer is what the reply to that one says. `Inquiry.Next` is all that may
happen to an inquiry in one move, whoever makes it.
-/

namespace LogQL.Labels

open Cache (Question Clear)

/-! ## Inquiries -/

/-- A request to the client, and what it came to. -/
structure Exchange where
  address : String
  options : Fetch.Options
  outcome : Except Fetch.Failure String

/-- A client for one request, which keeps a record of it. -/
def respond (outcome : Except Fetch.Failure String) : Fetch.Fetcher (List Exchange) :=
  fun address options sent => (outcome, sent ++ [⟨address, options, outcome⟩])

/-- What the outcome of a request says. -/
def replyOf : Except Fetch.Failure String → Except Failure (List String)
  | .error failure => .error (.fetch failure)
  | .ok body => readReply body

/-- The answer that a reply gives. -/
def answerOf (reply : Except Failure (List String)) : Except Failure Answer :=
  reply.map (⟨·, .remote⟩)

/-- How far an inquiry has come. -/
inductive Stage where
  /-- The cache had nothing fresh. -/
  | due
  /-- The server was asked. -/
  | replied (reply : Except Failure (List String))
  | answered (answer : Except Failure Answer)

/-- A question to a server, under way or answered. -/
structure Inquiry where
  remote : Remote
  question : Question
  sent : List Exchange
  stage : Stage

namespace Inquiry

/-- The request that this inquiry is to make, with its outcome. -/
def exchange (x : Inquiry) (outcome : Except Fetch.Failure String) : Exchange :=
  ⟨x.remote.address x.question, x.remote.options, outcome⟩

/-- Ask the server. -/
def send (x : Inquiry) (outcome : Except Fetch.Failure String) : Inquiry :=
  let (reply, sent) := x.remote.request (respond outcome) x.question x.sent
  { x with sent, stage := .replied reply }

/-- What a caller gets who does not want to know of failures. -/
def values? (x : Inquiry) : Option (List String) :=
  match x.stage with
  | .answered answer => some (valuesOf answer)
  | _ => none

end Inquiry

/-! ## Runs -/

/-- Something that callers see. -/
inductive Happening where
  /-- The inquiry with this number is answered. -/
  | answered (inquiry : Nat) (source : String) (q : Question) (answer : Except Failure Answer)
    (time : Millis)
  | cleared (c : Clear)

/-- All inquiries so far, numbered in the order in which they began, and what they share. -/
structure Traffic where
  now : Millis
  cache : Cache.Labels
  inquiries : List Inquiry
  history : List Happening

/-- One move in a run. -/
inductive Move where
  /-- An inquiry begins at a server: the cache is read. -/
  | ask (address : String) (options : Fetch.Options) (q : Question)
  /-- An inquiry sends its request, and this comes of it. -/
  | send (inquiry : Nat) (outcome : Except Fetch.Failure String)
  /-- An inquiry takes its reply in. -/
  | settle (inquiry : Nat)
  | forget (c : Clear)
  | setClock (now : Millis)

namespace Traffic

/-- No inquiries, and a cache without data. -/
def start (lifetime : Lifetime) (now : Millis) : Traffic := ⟨now, .empty lifetime, [], []⟩

/-- Make a move. -/
def step (w : Traffic) : Move → Traffic
  | .ask address options q =>
    let r := Remote.ofAddress address options
    match w.cache.read w.now r.base q with
    | (some values, cache) =>
      { w with
        cache
        inquiries := w.inquiries ++ [⟨r, q, [], .answered (.ok ⟨values, .cache⟩)⟩]
        history := w.history ++
          [.answered w.inquiries.length r.base q (.ok ⟨values, .cache⟩) w.now] }
    | (none, cache) => { w with cache, inquiries := w.inquiries ++ [⟨r, q, [], .due⟩] }
  | .send i outcome =>
    match w.inquiries[i]? with
    | some x =>
      match x.stage with
      | .due => { w with inquiries := w.inquiries.set i (x.send outcome) }
      | _ => w
    | none => w
  | .settle i =>
    match w.inquiries[i]? with
    | some x =>
      match x.stage with
      | .replied reply =>
        let (answer, cache) := x.remote.settle w.now w.cache x.question reply
        { w with
          cache
          inquiries := w.inquiries.set i { x with stage := .answered answer }
          history := w.history ++ [.answered i x.remote.base x.question answer w.now] }
      | _ => w
    | none => w
  | .forget c => { w with cache := w.cache.forget c, history := w.history ++ [.cleared c] }
  | .setClock now => { w with now }

/-- Everything after some moves. -/
def run (lifetime : Lifetime) (now : Millis) (moves : List Move) : Traffic :=
  moves.foldl step (start lifetime now)

theorem run_snoc (lifetime : Lifetime) (now : Millis) (moves : List Move) (m : Move) :
    run lifetime now (moves ++ [m]) = (run lifetime now moves).step m := by
  simp [run]

end Traffic

/-! ## The steps of an inquiry -/

variable {w : Traffic} {x y : Inquiry} {i : Nat}

/-- A request is one use of the client, and what it says is read as a reply. -/
theorem Remote.request_eq {σ : Type} (r : Remote) (fetch : Fetch.Fetcher σ) (q : Question)
    (s : σ) :
    r.request fetch q s =
      (replyOf (fetch (r.address q) r.options s).1, (fetch (r.address q) r.options s).2) := by
  unfold request
  rcases fetch (r.address q) r.options s with ⟨outcome, s'⟩
  cases outcome <;> rfl

theorem Inquiry.send_eq (x : Inquiry) (outcome : Except Fetch.Failure String) :
    x.send outcome =
      { x with sent := x.sent ++ [x.exchange outcome], stage := .replied (replyOf outcome) } := by
  unfold send
  rw [Remote.request_eq]
  rfl

/-- Only a body that can be read gives a list. -/
theorem replyOf_eq_ok {outcome : Except Fetch.Failure String} {values : List String}
    (h : replyOf outcome = .ok values) :
    ∃ body, outcome = .ok body ∧ readReply body = .ok values := by
  cases outcome with
  | error failure => exact absurd h (by simp [replyOf])
  | ok body => exact ⟨body, rfl, h⟩

theorem answerOf_eq_ok {reply : Except Failure (List String)} {answer : Answer}
    (h : answerOf reply = .ok answer) : reply = .ok answer.values ∧ answer.origin = .remote := by
  cases reply with
  | error failure => exact absurd h (by simp [answerOf, Except.map])
  | ok values =>
      obtain rfl : (⟨values, .remote⟩ : Answer) = answer := Except.ok.inj h
      exact ⟨rfl, rfl⟩

/-- What taking in a reply does to the cache: only a list is stored. -/
def keep (x : Inquiry) (now : Millis) (cache : Cache.Labels) :
    Except Failure (List String) → Cache.Labels
  | .ok values => cache.store now x.remote.base x.question values
  | .error _ => cache

theorem settle_eq (x : Inquiry) (now : Millis) (cache : Cache.Labels)
    (reply : Except Failure (List String)) :
    x.remote.settle now cache x.question reply = (answerOf reply, keep x now cache reply) := by
  cases reply <;> rfl

namespace Traffic

theorem step_ask_fresh {address : String} {options : Fetch.Options} {q : Question}
    {values : List String}
    (h : (w.cache.read w.now (trimBase address) q).1 = some values) :
    w.step (.ask address options q) =
      { w with
        cache := (w.cache.read w.now (trimBase address) q).2
        inquiries := w.inquiries ++
          [⟨.ofAddress address options, q, [], .answered (.ok ⟨values, .cache⟩)⟩]
        history := w.history ++
          [.answered w.inquiries.length (trimBase address) q (.ok ⟨values, .cache⟩) w.now] } := by
  unfold step
  dsimp only [Remote.ofAddress]
  split
  · rename_i values' cache hread
    rw [hread] at h ⊢
    obtain rfl : values' = values := Option.some.inj h
    rfl
  · rename_i cache hread
    rw [hread] at h
    exact absurd h (by simp)

theorem step_ask_due {address : String} {options : Fetch.Options} {q : Question}
    (h : (w.cache.read w.now (trimBase address) q).1 = none) :
    w.step (.ask address options q) =
      { w with
        cache := (w.cache.read w.now (trimBase address) q).2
        inquiries := w.inquiries ++ [⟨.ofAddress address options, q, [], .due⟩] } := by
  unfold step
  dsimp only [Remote.ofAddress]
  split
  · rename_i values cache hread
    rw [hread] at h
    exact absurd h (by simp)
  · rename_i cache hread
    rw [hread]

theorem step_send_due (hx : w.inquiries[i]? = some x) (hdue : x.stage = .due)
    (outcome : Except Fetch.Failure String) :
    w.step (.send i outcome) = { w with inquiries := w.inquiries.set i (x.send outcome) } := by
  unfold step
  dsimp only
  rw [hx]
  dsimp only
  rw [hdue]

theorem step_send_idle (hx : w.inquiries[i]? = some x) (hidle : x.stage ≠ .due)
    (outcome : Except Fetch.Failure String) : w.step (.send i outcome) = w := by
  cases hstage : x.stage with
  | due => exact absurd hstage hidle
  | replied _ => simp only [step, hx, hstage]
  | answered _ => simp only [step, hx, hstage]

theorem step_send_cases (w : Traffic) (i : Nat) (outcome : Except Fetch.Failure String) :
    (∃ x, w.inquiries[i]? = some x ∧ x.stage = .due ∧
      w.step (.send i outcome) = { w with inquiries := w.inquiries.set i (x.send outcome) }) ∨
    w.step (.send i outcome) = w := by
  cases hx : w.inquiries[i]? with
  | none => exact Or.inr (by simp only [step, hx])
  | some x =>
      by_cases hdue : x.stage = .due
      · exact Or.inl ⟨x, rfl, hdue, step_send_due hx hdue outcome⟩
      · exact Or.inr (step_send_idle hx hdue outcome)

theorem step_settle_replied (hx : w.inquiries[i]? = some x)
    {reply : Except Failure (List String)} (hreply : x.stage = .replied reply) :
    w.step (.settle i) =
      { w with
        cache := keep x w.now w.cache reply
        inquiries := w.inquiries.set i { x with stage := .answered (answerOf reply) }
        history := w.history ++
          [.answered i x.remote.base x.question (answerOf reply) w.now] } := by
  unfold step
  dsimp only
  rw [hx]
  dsimp only
  rw [hreply]
  dsimp only
  rw [settle_eq]

theorem step_settle_idle (hx : w.inquiries[i]? = some x)
    (hidle : ∀ reply, x.stage ≠ .replied reply) : w.step (.settle i) = w := by
  cases hstage : x.stage with
  | due => simp only [step, hx, hstage]
  | replied reply => exact absurd hstage (hidle reply)
  | answered _ => simp only [step, hx, hstage]

theorem step_settle_cases (w : Traffic) (i : Nat) :
    (∃ x reply, w.inquiries[i]? = some x ∧ x.stage = .replied reply ∧
      w.step (.settle i) =
        { w with
          cache := keep x w.now w.cache reply
          inquiries := w.inquiries.set i { x with stage := .answered (answerOf reply) }
          history := w.history ++
            [.answered i x.remote.base x.question (answerOf reply) w.now] }) ∨
    (∀ x reply, w.inquiries[i]? = some x → x.stage ≠ .replied reply) ∧ w.step (.settle i) = w := by
  cases hx : w.inquiries[i]? with
  | none => exact Or.inr ⟨fun _ _ h => absurd h (by simp), by simp only [step, hx]⟩
  | some x =>
      by_cases hreplied : ∃ reply, x.stage = .replied reply
      · obtain ⟨reply, hreply⟩ := hreplied
        exact Or.inl ⟨x, reply, rfl, hreply, step_settle_replied hx hreply⟩
      · have hidle : ∀ reply, x.stage ≠ .replied reply := not_exists.mp hreplied
        refine Or.inr ⟨?_, step_settle_idle hx hidle⟩
        intro y reply he
        obtain rfl := Option.some.inj he
        exact hidle reply

end Traffic

/-! ## The life of an inquiry -/

namespace Inquiry

/-- What a move may make of an inquiry. -/
inductive Next (x : Inquiry) : Inquiry → Prop where
  | stay : Next x x
  | send (hdue : x.stage = .due) (outcome : Except Fetch.Failure String) : Next x (x.send outcome)
  | settle {reply : Except Failure (List String)} (hreply : x.stage = .replied reply) :
      Next x { x with stage := .answered (answerOf reply) }

/-- Answered by the cache, and nothing was sent. -/
def FromCache (x : Inquiry) (values : List String) : Prop :=
  x.sent = [] ∧ x.stage = .answered (.ok ⟨values, .cache⟩)

/-- Not answered by the cache: one request is sent, and the answer is what comes of it. -/
inductive ViaServer (x : Inquiry) : Prop where
  | due (hsent : x.sent = []) (hstage : x.stage = .due)
  | replied (outcome : Except Fetch.Failure String) (hsent : x.sent = [x.exchange outcome])
      (hstage : x.stage = .replied (replyOf outcome))
  | answered (outcome : Except Fetch.Failure String) (hsent : x.sent = [x.exchange outcome])
      (hstage : x.stage = .answered (answerOf (replyOf outcome)))

/-- Answered by the cache, or on its way via the server. -/
def Regular (x : Inquiry) : Prop := (∃ values, x.FromCache values) ∨ x.ViaServer

theorem Next.remote_eq (h : x.Next y) : y.remote = x.remote := by
  cases h <;> rfl

theorem Next.question_eq (h : x.Next y) : y.question = x.question := by
  cases h <;> rfl

/-- An answer stays. -/
theorem Next.eq_of_answered (h : x.Next y) {answer : Except Failure Answer}
    (hx : x.stage = .answered answer) : y = x := by
  cases h with
  | stay => rfl
  | send hdue => rw [hx] at hdue; exact absurd hdue (by simp)
  | settle hreply => rw [hx] at hreply; exact absurd hreply (by simp)

theorem FromCache.next {values : List String} (h : x.FromCache values) (hn : x.Next y) :
    y.FromCache values := by
  rw [hn.eq_of_answered h.2]
  exact h

theorem ViaServer.sent_of_due (h : x.ViaServer) (hdue : x.stage = .due) : x.sent = [] := by
  cases h with
  | due hsent _ => exact hsent
  | replied _ _ hstage => rw [hdue] at hstage; exact absurd hstage (by simp)
  | answered _ _ hstage => rw [hdue] at hstage; exact absurd hstage (by simp)

theorem ViaServer.of_replied (h : x.ViaServer) {reply : Except Failure (List String)}
    (hreply : x.stage = .replied reply) :
    ∃ outcome, x.sent = [x.exchange outcome] ∧ reply = replyOf outcome := by
  cases h with
  | due _ hstage => rw [hreply] at hstage; exact absurd hstage (by simp)
  | replied outcome hsent hstage =>
      rw [hreply] at hstage
      exact ⟨outcome, hsent, Stage.replied.inj hstage⟩
  | answered _ _ hstage => rw [hreply] at hstage; exact absurd hstage (by simp)

theorem ViaServer.of_answered (h : x.ViaServer) {answer : Except Failure Answer}
    (hanswer : x.stage = .answered answer) :
    ∃ outcome, x.sent = [x.exchange outcome] ∧ answer = answerOf (replyOf outcome) := by
  cases h with
  | due _ hstage => rw [hanswer] at hstage; exact absurd hstage (by simp)
  | replied _ _ hstage => rw [hanswer] at hstage; exact absurd hstage (by simp)
  | answered outcome hsent hstage =>
      rw [hanswer] at hstage
      exact ⟨outcome, hsent, Stage.answered.inj hstage⟩

/-- The one request is sent when it is due, and its reply is what is taken in. -/
theorem ViaServer.next (h : x.ViaServer) (hn : x.Next y) : y.ViaServer := by
  cases hn with
  | stay => exact h
  | send hdue outcome =>
      rw [send_eq, h.sent_of_due hdue]
      exact .replied outcome rfl rfl
  | settle hreply =>
      obtain ⟨outcome, hsent, rfl⟩ := h.of_replied hreply
      exact .answered outcome hsent rfl

theorem Regular.next (h : x.Regular) (hn : x.Next y) : y.Regular := by
  rcases h with ⟨values, h⟩ | h
  · exact Or.inl ⟨values, h.next hn⟩
  · exact Or.inr (h.next hn)

end Inquiry

namespace Traffic

theorem length_le_step (w : Traffic) (m : Move) :
    w.inquiries.length ≤ (w.step m).inquiries.length := by
  cases m with
  | ask address options q =>
      cases hread : (w.cache.read w.now (trimBase address) q).1 with
      | some values => rw [step_ask_fresh hread]; simp
      | none => rw [step_ask_due hread]; simp
  | send j outcome =>
      rcases step_send_cases w j outcome with ⟨x, -, -, he⟩ | he <;> rw [he]
      simp
  | settle j =>
      rcases step_settle_cases w j with ⟨x, reply, -, -, he⟩ | ⟨-, he⟩ <;> rw [he]
      simp
  | forget c => exact Nat.le_refl _
  | setClock now => exact Nat.le_refl _

theorem of_getElem?_concat {l : List Inquiry} (h : (l ++ [x])[i]? = some y) :
    l[i]? = some y ∨ i = l.length ∧ y = x := by
  rcases Nat.lt_or_ge i l.length with hi | hi
  · rw [List.getElem?_append_left hi] at h
    exact Or.inl h
  · rw [List.getElem?_append_right hi] at h
    obtain ⟨hlt, rfl⟩ := List.getElem?_eq_some_iff.mp h
    rw [List.length_singleton] at hlt
    exact Or.inr ⟨by omega, by simp⟩

/-- Where an inquiry was replaced, an inquiry is the next of one that was there before. -/
theorem next_of_set {l : List Inquiry} {j : Nat} {z : Inquiry} (hx : l[j]? = some x)
    (hz : x.Next z) (h : (l.set j z)[i]? = some y) : ∃ x, l[i]? = some x ∧ x.Next y := by
  rw [List.getElem?_set] at h
  split at h
  · -- this is the inquiry that was replaced
    rename_i hji
    split at h
    · obtain rfl := Option.some.inj h
      exact ⟨x, hji ▸ hx, hz⟩
    · exact absurd h (by simp)
  · exact ⟨y, h, .stay⟩

/-- An inquiry after a move is one that was there before, or one that has just begun. -/
theorem inquiry_step {m : Move} (hy : (w.step m).inquiries[i]? = some y) :
    (∃ x, w.inquiries[i]? = some x ∧ x.Next y) ∨
      i = w.inquiries.length ∧ y.sent = [] ∧
        (y.stage = .due ∨ ∃ values, y.stage = .answered (.ok ⟨values, .cache⟩)) := by
  cases m with
  | ask address options q =>
      cases hread : (w.cache.read w.now (trimBase address) q).1 with
      | some values =>
          rw [step_ask_fresh hread] at hy
          rcases of_getElem?_concat hy with hy | ⟨hi, rfl⟩
          · exact Or.inl ⟨y, hy, .stay⟩
          · exact Or.inr ⟨hi, rfl, Or.inr ⟨values, rfl⟩⟩
      | none =>
          rw [step_ask_due hread] at hy
          rcases of_getElem?_concat hy with hy | ⟨hi, rfl⟩
          · exact Or.inl ⟨y, hy, .stay⟩
          · exact Or.inr ⟨hi, rfl, Or.inl rfl⟩
  | send j outcome =>
      rcases step_send_cases w j outcome with ⟨x, hx, hdue, he⟩ | he
      · rw [he] at hy
        exact Or.inl (next_of_set hx (.send hdue outcome) hy)
      · rw [he] at hy
        exact Or.inl ⟨y, hy, .stay⟩
  | settle j =>
      rcases step_settle_cases w j with ⟨x, reply, hx, hreply, he⟩ | ⟨-, he⟩
      · rw [he] at hy
        exact Or.inl (next_of_set hx (.settle hreply) hy)
      · rw [he] at hy
        exact Or.inl ⟨y, hy, .stay⟩
  | forget c => exact Or.inl ⟨y, hy, .stay⟩
  | setClock now => exact Or.inl ⟨y, hy, .stay⟩

/-- **A move takes every inquiry one step further, if at all.** -/
theorem step_next (m : Move) (hx : w.inquiries[i]? = some x) :
    ∃ y, (w.step m).inquiries[i]? = some y ∧ x.Next y := by
  obtain ⟨hi, -⟩ := List.getElem?_eq_some_iff.mp hx
  -- no move makes the table shorter, so the number still stands for an inquiry
  have hlt : i < (w.step m).inquiries.length := Nat.lt_of_lt_of_le hi (length_le_step w m)
  refine ⟨_, List.getElem?_eq_getElem hlt, ?_⟩
  rcases inquiry_step (List.getElem?_eq_getElem hlt) with ⟨x', hx', hnext⟩ | ⟨he, -⟩
  · rwa [Option.some.inj (hx.symm.trans hx')]
  · omega

/-- What no move can take from an inquiry, no run can. -/
theorem foldl_step_keeps {P : Inquiry → Prop} (hP : ∀ {x y : Inquiry}, P x → x.Next y → P y)
    (moves : List Move) (hx : w.inquiries[i]? = some x) (h : P x) :
    ∃ y, (moves.foldl step w).inquiries[i]? = some y ∧ P y := by
  induction moves generalizing w x with
  | nil => exact ⟨x, hx, h⟩
  | cons m moves ih =>
      obtain ⟨y, hy, hnext⟩ := step_next m hx
      exact ih hy (hP h hnext)

/-- **Every inquiry of a run is regular.** -/
theorem regular_run (lifetime : Lifetime) (now : Millis) (moves : List Move)
    (hx : (run lifetime now moves).inquiries[i]? = some x) : x.Regular := by
  induction moves using List.reverseRecOn generalizing i x with
  | nil => exact absurd hx (by simp [run, start])
  | append_singleton moves m ih =>
      -- before the last move the inquiry was regular, or it was not there
      rw [run_snoc] at hx
      rcases inquiry_step hx with ⟨x', hx', hnext⟩ | ⟨-, hsent, hdue | ⟨values, hstage⟩⟩
      · exact (ih hx').next hnext
      · exact Or.inr (.due hsent hdue)
      · exact Or.inl ⟨values, hsent, hstage⟩

end Traffic

end LogQL.Labels
