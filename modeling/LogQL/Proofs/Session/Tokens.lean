import LogQL.Proofs.Session.Interleaving
import Mathlib.Data.List.Forall2
import Mathlib.Data.List.Induction

/-!
# Tokens of calls that overlap

Any number of calls may be under way at one session (`Overlap`). A run is a list of moves: a call
starts, with its first step; a call that was started takes its next step; the clock is set. A
completion draws its token with its first step and may take all others at any time later, or never.

The token drawn last is told from the count of the session, and after `n` draws the count is `n`:
that is all that a draw does to it, and no other step does anything (`Steps.Upholds`). So the tokens
are the numbers 1, 2, 3 and so on, in the order in which the calls started, for as long as the count
does not come round (`Tallied`).
-/

namespace LogQL.Session

open Cache (Question)

variable {σ : Type}

/-! ## Steps that draw no token -/

namespace Answerer

theorem upholds_askRemote (fetch : Fetch.Fetcher σ) (r : Labels.Remote) (q : Question) :
    (askRemote fetch r q).Upholds Desk.tokens fun _ => True := by
  have hread : (Steps.act (Desk.read r q)).Upholds (Desk.tokens (σ := σ)) fun _ => True :=
    Steps.upholds_act (fun d => by simp [Desk.tokens, Desk.read]) fun _ => trivial
  have hsend : (Steps.act (Desk.send fetch r q)).Upholds Desk.tokens fun _ => True :=
    Steps.upholds_act (fun _ => rfl) fun _ => trivial
  refine hread.bind fun found _ => ?_
  cases found with
  | some values => exact Steps.upholds_pure trivial
  | none =>
      refine hsend.bind fun reply _ => ?_
      exact Steps.upholds_act (fun d => by simp [Desk.tokens, Desk.settle]) fun _ => trivial

theorem upholds_ask (a : Answerer σ) (q : Question) :
    (a.ask q).Upholds Desk.tokens fun _ => True := by
  cases a with
  | named fetch =>
      refine (Steps.upholds_look _).bind fun provider _ => ?_
      cases provider with
      | none => exact Steps.upholds_pure trivial
      | table labels => exact Steps.upholds_pure trivial
      | remote r => exact upholds_askRemote fetch r q
  | foreign answer =>
      have hset : ∀ (client : σ) (d : Desk σ), { d with client }.tokens = d.tokens := fun _ _ => rfl
      exact Steps.upholds_on hset (answer q)

/-- **After its token a completion draws no other**, and changes nothing that tokens depend on. -/
theorem upholds_offer (a : Answerer σ) (r : Request) :
    (a.offer r).Upholds Desk.tokens fun _ => True := by
  refine (Steps.upholds_look _).bind fun on _ => ?_
  split
  · rw [Request.complete?]
    cases r.context? with
    | none => exact Steps.upholds_pure trivial
    | some context =>
        dsimp only
        cases context.intent.question? with
        | none => exact Steps.upholds_pure trivial
        | some q =>
            have hvalues : (do return Labels.valuesOf (← a.ask q) : Steps (Desk σ) _).Upholds
                Desk.tokens fun _ => True :=
              (a.upholds_ask q).bind fun _ _ => Steps.upholds_pure trivial
            exact hvalues.bind fun _ _ => Steps.upholds_pure trivial
  · exact Steps.upholds_pure trivial

end Answerer

/-! ## Calls -/

/-- What a call returns. -/
inductive Overlap.Reply where
  | token (token : UInt64)
  | completion (token : UInt64) (offer : Option Completion)
  | findings (found : List Diagnostic)
  | done

/-- The token that a reply carries. -/
def Overlap.Reply.token? : Reply → Option UInt64
  | .token t => some t
  | .completion t _ => some t
  | .findings _ | .done => none

/-- Something that a host calls a session for, while other calls are under way. -/
inductive Overlap.Call where
  | begin
  | complete (r : Request)
  | lint (text : List Char) (tree : Option Tree)
  | clearCache
  | clearNames (source : Option String)
  | clearValues (source label : Option String)

namespace Overlap.Call

/-- The steps of a call. -/
def steps (a : Answerer σ) : Call → Steps (Desk σ) Reply
  | .begin => return .token (← Steps.act Desk.draw)
  | .complete r => do
    let (token, offer) ← a.complete r
    return .completion token offer
  | .lint text tree => return .findings (← Steps.look (·.session.lint text tree))
  | .clearCache => .act fun d => (.done, { d with session := d.session.clearCache })
  | .clearNames source => .act fun d => (.done, { d with session := d.session.clearNames source })
  | .clearValues source label =>
    .act fun d => (.done, { d with session := d.session.clearValues source label })

/-- The call draws a token. -/
def draws : Call → Bool
  | .begin | .complete _ => true
  | _ => false

/-- **A call that draws a token draws it at once, draws no other, and returns this one.** -/
theorem advance_of_draws {c : Call} (h : c.draws = true) (a : Answerer σ) (d : Desk σ) :
    ((c.steps a).advance d).2 = d.draw.2 ∧
      ((c.steps a).advance d).1.Upholds Desk.tokens (·.token? = some d.draw.1) := by
  cases c with
  | begin => exact ⟨rfl, .done rfl⟩
  | complete r =>
      refine ⟨rfl, ?_⟩
      -- the token is known by now, and what is left only adds the offer to it
      have hpair : (do return (d.draw.1, ← a.offer r) : Steps (Desk σ) _).Upholds Desk.tokens
          (fun result => result.1 = d.draw.1) :=
        (a.upholds_offer r).bind fun _ _ => Steps.upholds_pure rfl
      exact hpair.bind fun _ htoken => Steps.upholds_pure (congrArg some htoken)
  | _ => exact absurd h (by simp [draws])

/-- The steps of any other call leave the tokens as they are. -/
theorem upholds_of_not_draws {c : Call} (h : c.draws = false) (a : Answerer σ) :
    (c.steps a).Upholds Desk.tokens fun _ => True := by
  cases c with
  | begin => exact absurd h (by simp [draws])
  | complete r => exact absurd h (by simp [draws])
  | lint text tree => exact (Steps.upholds_look _).bind fun _ _ => Steps.upholds_pure trivial
  | clearCache => exact Steps.upholds_act (fun _ => rfl) fun _ => trivial
  | clearNames source => exact Steps.upholds_act (fun _ => rfl) fun _ => trivial
  | clearValues source label => exact Steps.upholds_act (fun _ => rfl) fun _ => trivial

end Overlap.Call

/-! ## Runs -/

/-- A call that was started, with the steps that it has left. -/
structure Overlap.Begun (σ : Type) where
  call : Call
  rest : Steps (Desk σ) Reply

/-- What a call that was started has returned, once it is over. -/
def Overlap.Begun.reply? (x : Begun σ) : Option Reply := x.rest.result?

/-- A session at work: what calls share, and the calls, in the order in which they were started. -/
structure Overlap (σ : Type) where
  desk : Desk σ
  calls : List (Overlap.Begun σ)

/-- One move in a run. -/
inductive Overlap.Move where
  /-- A call starts, and takes its first step. -/
  | start (c : Call)
  /-- The call with this number takes a step, if it has one left. -/
  | proceed (call : Nat)
  | setClock (now : Millis)

namespace Overlap

/-- The call that a move starts. -/
def Move.call? : Move → Option Call
  | .start c => some c
  | .proceed _ | .setClock _ => none

/-- The move starts a request: it draws a token. -/
def Move.draws (m : Move) : Bool := m.call?.any Call.draws

/-- A session that nothing was asked of yet. -/
def start (settings : Settings) (provider : Labels.Provider) (apart : Option Cache.Labels)
    (client : σ) (now : Millis) : Overlap σ :=
  ⟨⟨Session.start settings provider apart, client, now, []⟩, []⟩

/-- Make a move. -/
def step (a : Answerer σ) (o : Overlap σ) : Move → Overlap σ
  | .start c =>
    let (rest, desk) := (c.steps a).advance o.desk
    ⟨desk, o.calls ++ [⟨c, rest⟩]⟩
  | .proceed i =>
    match o.calls[i]? with
    | none => o
    | some x =>
      -- a call that is over has no step to take, and stays as it is
      let (rest, desk) := x.rest.advance o.desk
      ⟨desk, o.calls.set i { x with rest }⟩
  | .setClock now => { o with desk := { o.desk with now } }

/-- What comes of some moves. -/
def run (a : Answerer σ) (o : Overlap σ) (moves : List Move) : Overlap σ := moves.foldl (step a) o

theorem run_append (a : Answerer σ) (o : Overlap σ) (moves after : List Move) :
    run a o (moves ++ after) = run a (run a o moves) after :=
  List.foldl_append

/-- Whether a token is the one drawn last. -/
def isCurrent (o : Overlap σ) (token : UInt64) : Bool := o.desk.session.isCurrent token

/-! ## What a move keeps -/

/-- The call was started with this token, and returns no other. -/
def Begun.Holds (x : Begun σ) (token : UInt64) : Prop :=
  x.rest.Upholds Desk.tokens (·.token? = some token)

/-- The token that is drawn after `i` others. -/
def nth (i : Nat) : UInt64 := UInt64.ofNat (i + 1)

/-- After `n` draws, the count is `n`, the tokens are the numbers up to `n`, and each belongs to one
call, in the order of their starts. No step that is left draws another. -/
structure Tallied (n : Nat) (o : Overlap σ) : Prop where
  generation_eq : o.desk.session.generation = UInt64.ofNat n
  drawn_eq : o.desk.drawn = (List.range n).map nth
  holds : List.Forall₂ Begun.Holds (o.calls.filter (·.call.draws)) o.desk.drawn
  upholds : ∀ x ∈ o.calls, x.rest.Upholds Desk.tokens fun _ => True

variable {n : Nat} {o : Overlap σ}

theorem tallied_start (settings : Settings) (provider : Labels.Provider)
    (apart : Option Cache.Labels) (client : σ) (now : Millis) :
    Tallied 0 (start settings provider apart client now) :=
  ⟨rfl, rfl, .nil, by simp [start]⟩

/-- An item of a list makes way for one that holds what it did. -/
theorem forall₂_filter_set {α β : Type} {R : α → β → Prop} {p : α → Bool} {l : List α}
    {ts : List β} (h : List.Forall₂ R (l.filter p) ts) {i : Nat} {x y : α} (hx : l[i]? = some x)
    (hp : p y = p x) (hR : ∀ t, R x t → R y t) :
    List.Forall₂ R ((l.set i y).filter p) ts := by
  induction l generalizing i ts with
  | nil => exact h
  | cons z l ih =>
      cases i with
      | zero =>
          obtain rfl : z = x := Option.some.inj hx
          rw [List.set_cons_zero]
          cases hz : p z with
          | true =>
              -- the item that makes way is the first one that is paired
              rw [List.filter_cons_of_pos hz] at h
              rw [List.filter_cons_of_pos (hp.trans hz)]
              cases h with
              | cons hzt hrest => exact .cons (hR _ hzt) hrest
          | false =>
              rw [List.filter_cons_of_neg (by simp [hz])] at h
              rw [List.filter_cons_of_neg (by simp [hp, hz])]
              exact h
      | succ i =>
          rw [List.set_cons_succ]
          cases hz : p z with
          | true =>
              rw [List.filter_cons_of_pos hz] at h ⊢
              cases h with
              | cons hzt hrest => exact .cons hzt (ih hrest hx)
          | false =>
              rw [List.filter_cons_of_neg (by simp [hz])] at h ⊢
              exact ih h hx

/-- A call that draws no token leaves the tally as it is. -/
theorem Tallied.start_silent (h : Tallied n o) (a : Answerer σ) {c : Call}
    (hc : c.draws = false) : Tallied n (o.step a (.start c)) := by
  have hsteps := Call.upholds_of_not_draws hc a
  obtain ⟨hgeneration, hdrawn⟩ := Prod.mk.inj (hsteps.advance_keeps o.desk)
  have hfilter : (o.step a (.start c)).calls.filter (·.call.draws) =
      o.calls.filter (·.call.draws) := by
    simp [step, hc]
  refine ⟨hgeneration.trans h.generation_eq, hdrawn.trans h.drawn_eq, ?_, fun x hx => ?_⟩
  · rw [hfilter]
    exact hdrawn ▸ h.holds
  · rcases List.mem_append.mp hx with hx | hx
    · exact h.upholds x hx
    · obtain rfl := List.mem_singleton.mp hx
      exact hsteps.advance o.desk

/-- **A call that draws a token is one more.** -/
theorem Tallied.start_draws (h : Tallied n o) (a : Answerer σ) {c : Call}
    (hc : c.draws = true) : Tallied (n + 1) (o.step a (.start c)) := by
  obtain ⟨hdesk, hrest⟩ := Call.advance_of_draws hc a o.desk
  have htoken : o.desk.draw.1 = nth n := by
    show o.desk.session.generation + 1 = nth n
    rw [h.generation_eq, nth, UInt64.ofNat_add]
    rfl
  have hdesk' : (o.step a (.start c)).desk = o.desk.draw.2 := hdesk
  have hdrawn : (o.step a (.start c)).desk.drawn = o.desk.drawn ++ [nth n] := by
    rw [hdesk', ← htoken]
    rfl
  have hfilter : (o.step a (.start c)).calls.filter (·.call.draws) =
      o.calls.filter (·.call.draws) ++ [⟨c, ((c.steps a).advance o.desk).1⟩] := by
    simp [step, hc]
  refine ⟨?_, ?_, ?_, fun x hx => ?_⟩
  · rw [hdesk']
    exact htoken
  · rw [hdrawn, h.drawn_eq, List.range_succ, List.map_append]
    rfl
  · rw [hdrawn, hfilter]
    exact List.rel_append h.holds (.cons (htoken ▸ hrest) .nil)
  · rcases List.mem_append.mp hx with hx | hx
    · exact h.upholds x hx
    · obtain rfl := List.mem_singleton.mp hx
      exact hrest.mono fun _ _ => trivial

/-- **The steps that calls have left leave the tally as it is.** -/
theorem Tallied.proceed (h : Tallied n o) (a : Answerer σ) (i : Nat) :
    Tallied n (o.step a (.proceed i)) := by
  cases hi : o.calls[i]? with
  | none =>
      have hsame : o.step a (.proceed i) = o := by rw [step, hi]
      rw [hsame]
      exact h
  | some x =>
      have hmove : o.step a (.proceed i) =
          ⟨(x.rest.advance o.desk).2, o.calls.set i { x with rest := (x.rest.advance o.desk).1 }⟩ := by
        rw [step, hi]
      -- whichever call it is, its token was drawn when it started
      have hx := h.upholds x (List.mem_of_getElem? hi)
      obtain ⟨hgeneration, hdrawn⟩ := Prod.mk.inj (hx.advance_keeps o.desk)
      rw [hmove]
      refine ⟨hgeneration.trans h.generation_eq, hdrawn.trans h.drawn_eq, ?_, fun y hy => ?_⟩
      · have hadvance : ∀ token, x.Holds token →
            ({ x with rest := (x.rest.advance o.desk).1 } : Begun σ).Holds token :=
          fun token htoken => Steps.Upholds.advance htoken o.desk
        exact hdrawn ▸ forall₂_filter_set h.holds hi rfl hadvance
      · rcases List.mem_or_eq_of_mem_set hy with hy | rfl
        · exact h.upholds y hy
        · exact hx.advance o.desk

/-- **Every move keeps the tally.** -/
theorem Tallied.step (h : Tallied n o) (a : Answerer σ) (m : Move) :
    Tallied (n + if m.draws then 1 else 0) (o.step a m) := by
  cases m with
  | start c =>
      have hdraws : (Move.start c).draws = c.draws := rfl
      cases hc : c.draws with
      | true =>
          rw [hdraws, hc]
          exact h.start_draws a hc
      | false =>
          rw [hdraws, hc]
          exact h.start_silent a hc
  | proceed i => exact h.proceed a i
  | setClock now => exact ⟨h.generation_eq, h.drawn_eq, h.holds, h.upholds⟩

/-- **After any moves the tally is the number of requests.** -/
theorem Tallied.run (h : Tallied n o) (a : Answerer σ) (moves : List Move) :
    Tallied (n + moves.countP Move.draws) (run a o moves) := by
  induction moves using List.reverseRecOn with
  | nil => exact h
  | append_singleton moves m ih =>
      rw [List.countP_append, List.countP_singleton, ← Nat.add_assoc, run_append]
      exact ih.step a m

/-- A call stays the same call, whichever steps it has left. -/
theorem map_call_set {l : List (Begun σ)} {i : Nat} {x : Begun σ} (hx : l[i]? = some x)
    (rest : Steps (Desk σ) Reply) : (l.set i { x with rest }).map (·.call) = l.map (·.call) := by
  obtain ⟨hlt, rfl⟩ := List.getElem?_eq_some_iff.mp hx
  have hlt' : i < (l.map (·.call)).length := by simpa using hlt
  have hcall : (l.map (·.call))[i] = l[i].call := List.getElem_map ..
  rw [List.map_set]
  show (l.map (·.call)).set i l[i].call = _
  rw [← hcall, List.set_getElem_self]

theorem calls_step (a : Answerer σ) (o : Overlap σ) (m : Move) :
    (o.step a m).calls.map (·.call) = o.calls.map (·.call) ++ m.call?.toList := by
  cases m with
  | start c => exact List.map_append
  | setClock now => exact (List.append_nil _).symm
  | proceed i =>
      show _ = _ ++ []
      rw [List.append_nil, step]
      cases hi : o.calls[i]? with
      | none => rfl
      | some x => exact map_call_set hi _

/-- The calls are those that the moves have started. -/
theorem calls_run (a : Answerer σ) (o : Overlap σ) (moves : List Move) :
    (run a o moves).calls.map (·.call) = o.calls.map (·.call) ++ moves.filterMap Move.call? := by
  induction moves using List.reverseRecOn with
  | nil => exact (List.append_nil _).symm
  | append_singleton moves m ih =>
      rw [run_append, List.filterMap_append, ← List.append_assoc, ← ih]
      have hone : List.filterMap Move.call? [m] = m.call?.toList := by
        cases m <;> rfl
      rw [hone]
      exact calls_step a (run a o moves) m

/-! ## Tokens that count -/

theorem nth_lt {i j : Nat} (hij : i < j) (hj : j + 1 < UInt64.size) : nth i < nth j :=
  (UInt64.ofNat_lt_iff_lt (by omega) hj).mpr (by omega)

theorem Tallied.length_drawn (h : Tallied n o) : o.desk.drawn.length = n := by
  rw [h.drawn_eq, List.length_map, List.length_range]

/-- **Each token is greater than those before it.** -/
theorem Tallied.pairwise_lt (h : Tallied n o) (hn : n < UInt64.size) :
    o.desk.drawn.Pairwise (· < ·) := by
  rw [h.drawn_eq, List.pairwise_map]
  refine List.pairwise_lt_range.imp_of_mem fun _ hj hij => ?_
  have hjn := List.mem_range.mp hj
  exact nth_lt hij (by omega)

theorem Tallied.isCurrent_iff (h : Tallied n o) {token : UInt64} :
    o.isCurrent token = true ↔ UInt64.ofNat n = token := by
  rw [isCurrent, Session.isCurrent, h.generation_eq, beq_iff_eq]

/-- **The current token is the last one.** -/
theorem Tallied.isCurrent_iff_getLast? (h : Tallied n o) {token : UInt64}
    (htoken : token ∈ o.desk.drawn) :
    o.isCurrent token = true ↔ o.desk.drawn.getLast? = some token := by
  rw [h.isCurrent_iff, h.drawn_eq]
  rw [h.drawn_eq] at htoken
  cases n with
  | zero => exact absurd htoken (by simp)
  | succ n =>
      rw [List.range_succ, List.map_append, List.map_singleton, List.getLast?_concat,
        Option.some.injEq]
      rfl

/-- A move that draws no token leaves each as current as it was. -/
theorem Tallied.isCurrent_step (h : Tallied n o) (a : Answerer σ) {m : Move} (hm : m.draws = false)
    (token : UInt64) : (o.step a m).isCurrent token = o.isCurrent token := by
  have hlater := h.step a m
  rw [hm] at hlater
  rw [Bool.eq_iff_iff, hlater.isCurrent_iff, h.isCurrent_iff]
  rfl

/-- **A token that is not current any more will not be again.** -/
theorem Tallied.superseded (h : Tallied n o) {later : Overlap σ} {m : Nat}
    (hlater : Tallied (n + m) later) (hm : n + m < UInt64.size) {token : UInt64}
    (htoken : token ∈ o.desk.drawn) (hold : o.isCurrent token = false) :
    later.isCurrent token = false := by
  rw [h.drawn_eq] at htoken
  obtain ⟨i, hi, rfl⟩ := List.mem_map.mp htoken
  have hin : i < n := List.mem_range.mp hi
  -- the token was not the last one by then, so the count was past its number
  have hne : i + 1 ≠ n := by
    intro heq
    have hcurrent : o.isCurrent (nth i) = true := h.isCurrent_iff.mpr (by rw [nth, heq])
    exact absurd hcurrent (by simp [hold])
  rw [← Bool.not_eq_true, hlater.isCurrent_iff]
  intro heq
  have hlt : nth i < UInt64.ofNat (n + m) :=
    (UInt64.ofNat_lt_iff_lt (by omega) hm).mpr (by omega)
  exact absurd hlt (heq ▸ UInt64.lt_irrefl _)

/-- **Each token is current until the next one is drawn, and never again.** Calls start and take
their steps in any order, and begin fewer requests than a token can count. Then the tokens are
distinct, each greater than those drawn before it; a call that draws one returns no other. At any
time the current one among them is the last, and one that is not current will not be again. No move
but the start of a request changes which token is current. -/
theorem tokens_supersede (settings : Settings) (provider : Labels.Provider)
    (apart : Option Cache.Labels) (a : Answerer σ) (client : σ) (now : Millis) (moves : List Move)
    (h : moves.countP Move.draws < UInt64.size) :
    let o := run a (start settings provider apart client now) moves
    let issued := o.desk.drawn
    (issued.length = moves.countP Move.draws ∧ issued.Nodup ∧ issued.Pairwise (· < ·)) ∧
    (o.calls.map (·.call) = moves.filterMap Move.call? ∧
      List.Forall₂ (fun x token => ∀ reply, x.reply? = some reply → reply.token? = some token)
        (o.calls.filter (·.call.draws)) issued) ∧
    (∀ token ∈ issued, (o.isCurrent token = true ↔ issued.getLast? = some token)) ∧
    (∀ after, (moves ++ after).countP Move.draws < UInt64.size →
      ∀ token ∈ issued, o.isCurrent token = false → (run a o after).isCurrent token = false) ∧
    ∀ m, m.draws = false → ∀ token, (o.step a m).isCurrent token = o.isCurrent token := by
  intro o issued
  have htally : Tallied (moves.countP Move.draws) o := by
    have hrun := (tallied_start settings provider apart client now).run a moves
    rwa [Nat.zero_add] at hrun
  have hlt : issued.Pairwise (· < ·) := htally.pairwise_lt h
  refine ⟨⟨htally.length_drawn, ?_, hlt⟩, ⟨?_, ?_⟩, fun token => htally.isCurrent_iff_getLast?, ?_,
    fun m hm token => htally.isCurrent_step a hm token⟩
  · refine hlt.imp fun hxy heq => ?_
    exact absurd hxy (heq ▸ UInt64.lt_irrefl _)
  · exact (calls_run a _ moves).trans (List.nil_append _)
  · exact htally.holds.imp fun _ _ hx _ hreply => Steps.Upholds.of_result? hx hreply
  · intro after hafter token htoken hold
    rw [List.countP_append] at hafter
    exact htally.superseded (htally.run a after) hafter htoken hold

/-- A client whose every request brings one label. -/
def oneLabel : Fetch.Fetcher Unit := fun _ _ w =>
  (.ok "\x7b\"status\":\"success\",\"data\":[\"job\"]\x7d", w)

/-- Two completions of an open brace. The second one starts while the first one has the cache read,
and is over before the first one asks; a bare request comes in between, and a clear. -/
def crossing : List Move :=
  let completion : Move := .start (.complete ⟨['{'], 1, none, false⟩)
  [completion, .proceed 0, .proceed 0, .proceed 0, completion] ++ List.replicate 5 (.proceed 1) ++
    [.start .begin, .start .clearCache, .proceed 0, .proceed 0]

/-- What comes of it. -/
def crossed : Overlap Unit :=
  run (.named oneLabel) (start { Settings.standard with source := some "http://loki" }
    (.remote (.ofAddress "http://loki" Settings.standard.fetchOptions)) none () 0) crossing

/-- All three have returned: the tokens are 1, 2 and 3, in the order of the starts. That of the first
completion, which finished last, is not current, and will not be. -/
theorem tokens_supersede_crossing :
    crossing.countP Move.draws < UInt64.size ∧
    crossed.calls.map (·.reply?.bind Reply.token?) = [some 1, some 2, some 3, none] ∧
    crossed.desk.drawn = [1, 2, 3] ∧ crossed.desk.drawn.Nodup ∧ crossed.isCurrent 1 = false ∧
    ∀ after, (crossing ++ after).countP Move.draws < UInt64.size →
      (run (.named oneLabel) crossed after).isCurrent 1 = false := by
  have hcount : crossing.countP Move.draws < UInt64.size := by decide
  obtain ⟨⟨-, hnodup, -⟩, -, -, hnever, -⟩ :=
    tokens_supersede { Settings.standard with source := some "http://loki" }
      (.remote (.ofAddress "http://loki" Settings.standard.fetchOptions)) none (.named oneLabel) () 0
      crossing hcount
  have hdrawn : crossed.desk.drawn = [1, 2, 3] := by decide +kernel
  have hold : crossed.isCurrent 1 = false := by decide +kernel
  refine ⟨hcount, by decide +kernel, hdrawn, hnodup, hold, fun after hafter => ?_⟩
  have hdrawnBefore : 1 ∈ crossed.desk.drawn := by simp [hdrawn]
  exact hnever after hafter 1 hdrawnBefore hold

end Overlap

end LogQL.Session
