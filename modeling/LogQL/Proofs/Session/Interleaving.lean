import LogQL.Session

/-!
# Completions that others interrupt

A session is one object, and a completion that waits for a server does not hold it. So a completion
is written here as a computation that takes steps (`Steps`): it draws its token, it reads the cache,
it asks the server, it takes the reply in, and anything may happen to the session between two of
these. Each step is taken by the definition that the session itself is made of, and
`Request.complete?`, which runs in any monad, puts them together.

Left alone from the beginning to the end, the steps of a completion come to `Session.complete`
(`run_complete`).

A host may also bring a source of its own. Of that one nothing is known but that it has no access to
the session, so it takes any steps at all with what it has itself (`Answerer.foreign`).
-/

namespace LogQL

open Cache (Question)
open Labels (Failure Remote)

/-! ## Steps -/

/-- A computation in steps, each of which changes a state of which others may change between them.
What comes after a step depends on the state that it found. -/
inductive Steps (σ α : Type) : Type where
  | done (result : α)
  | step (change : σ → σ) (next : σ → Steps σ α)

namespace Steps

variable {σ τ α β : Type}

/-- Go on with what a computation comes to. -/
def bind : Steps σ α → (α → Steps σ β) → Steps σ β
  | done a, f => f a
  | step change next, f => step change fun s => (next s).bind f

instance : Monad (Steps σ) where
  pure := done
  bind := bind

/-- A single step. -/
def act (f : σ → α × σ) : Steps σ α := step (fun s => (f s).2) fun s => done (f s).1

/-- A step that only looks. -/
def look (f : σ → α) : Steps σ α := act fun s => (f s, s)

/-- All steps on end. -/
def run : Steps σ α → σ → α × σ
  | done a, s => (a, s)
  | step change next, s => (next s).run (change s)

/-- One step, if there is one left. -/
def advance : Steps σ α → σ → Steps σ α × σ
  | done a, s => (done a, s)
  | step change next, s => (next s, change s)

/-- What came of a computation, once it is over. -/
def result? : Steps σ α → Option α
  | done a => some a
  | step _ _ => none

/-- The steps of a computation, on a part of another state. -/
def on (get : τ → σ) (set : σ → τ → τ) : Steps σ α → Steps τ α
  | done a => done a
  | step change next => step (fun t => set (change (get t)) t) fun t => (next (get t)).on get set

theorem run_pure (a : α) (s : σ) : (pure a : Steps σ α).run s = (a, s) := rfl

theorem run_act (f : σ → α × σ) (s : σ) : (act f).run s = f s := rfl

theorem run_bind (x : Steps σ α) (f : α → Steps σ β) (s : σ) :
    (x >>= f).run s = (f (x.run s).1).run (x.run s).2 := by
  show (x.bind f).run s = _
  induction x generalizing s with
  | done a => rfl
  | step change next ih => exact ih s (change s)

/-- The steps leave the view `f` of the state as it is, whatever happens between them, and what
they come to has the property. -/
inductive Upholds (f : σ → β) (P : α → Prop) : Steps σ α → Prop where
  | done {a : α} : P a → Upholds f P (done a)
  | step {change : σ → σ} {next : σ → Steps σ α} :
      (∀ s, f (change s) = f s) → (∀ s, Upholds f P (next s)) → Upholds f P (step change next)

variable {f : σ → β} {P : α → Prop} {x : Steps σ α}

theorem upholds_pure {a : α} (h : P a) : (pure a : Steps σ α).Upholds f P := .done h

theorem upholds_act {g : σ → α × σ} (hkeeps : ∀ s, f (g s).2 = f s) (hresult : ∀ s, P (g s).1) :
    (act g).Upholds f P :=
  .step hkeeps fun s => .done (hresult s)

theorem upholds_look (g : σ → α) : (look g).Upholds f fun _ => True :=
  upholds_act (fun _ => rfl) fun _ => trivial

theorem Upholds.bind {γ : Type} {Q : γ → Prop} {y : α → Steps σ γ} (h : x.Upholds f P)
    (hy : ∀ a, P a → (y a).Upholds f Q) : (x >>= y).Upholds f Q := by
  show (x.bind y).Upholds f Q
  induction h with
  | done ha => exact hy _ ha
  | step hkeeps _ ih => exact .step hkeeps ih

theorem Upholds.advance_keeps (h : x.Upholds f P) (s : σ) : f (x.advance s).2 = f s := by
  cases h with
  | done _ => rfl
  | step hkeeps _ => exact hkeeps s

theorem Upholds.advance (h : x.Upholds f P) (s : σ) : (x.advance s).1.Upholds f P := by
  cases h with
  | done ha => exact .done ha
  | step _ hnext => exact hnext s

theorem Upholds.mono {Q : α → Prop} (h : x.Upholds f P) (hPQ : ∀ a, P a → Q a) :
    x.Upholds f Q := by
  induction h with
  | done ha => exact .done (hPQ _ ha)
  | step hkeeps _ ih => exact .step hkeeps ih

theorem Upholds.of_result? (h : x.Upholds f P) {a : α} (ha : x.result? = some a) : P a := by
  cases h with
  | done hp =>
      obtain rfl := Option.some.inj ha
      exact hp
  | step _ _ => exact absurd ha (by simp [result?])

/-- Steps on one part leave a view of the others as it is. -/
theorem upholds_on {get : τ → σ} {set : σ → τ → τ} {g : τ → β} (hset : ∀ s t, g (set s t) = g t)
    (x : Steps σ α) : (x.on get set).Upholds g fun _ => True := by
  induction x with
  | done a => exact .done trivial
  | step change next ih => exact .step (fun t => hset _ t) fun t => ih (get t)

end Steps

namespace Session

variable {σ : Type}

/-! ## The cache behind the source -/

/-- The cache of the source. -/
def shelf (s : Session) : Cache.Labels := s.apart.getD s.cache

/-- The session, with another cache for the source. -/
def putShelf (s : Session) (cache : Cache.Labels) : Session :=
  match s.apart with
  | none => { s with cache }
  | some _ => { s with apart := some cache }

theorem ask_eq (fetch : Fetch.Fetcher σ) (now later : Millis) (q : Question) (s : Session)
    (w : σ) :
    s.ask fetch now q w later =
      let (answer, cache, w) := s.provider.ask fetch now q s.shelf w later
      (answer, s.putShelf cache, w) := by
  obtain ⟨settings, provider, cache, apart, generation⟩ := s
  cases apart <;> rfl

theorem putShelf_shelf (s : Session) : s.putShelf s.shelf = s := by
  obtain ⟨settings, provider, cache, apart, generation⟩ := s
  cases apart <;> rfl

@[simp] theorem shelf_putShelf (s : Session) (cache : Cache.Labels) :
    (s.putShelf cache).shelf = cache := by
  obtain ⟨settings, provider, own, apart, generation⟩ := s
  cases apart <;> rfl

@[simp] theorem putShelf_putShelf (s : Session) (cache cache' : Cache.Labels) :
    (s.putShelf cache).putShelf cache' = s.putShelf cache' := by
  obtain ⟨settings, provider, own, apart, generation⟩ := s
  cases apart <;> rfl

@[simp] theorem generation_putShelf (s : Session) (cache : Cache.Labels) :
    (s.putShelf cache).generation = s.generation := by
  obtain ⟨settings, provider, own, apart, generation⟩ := s
  cases apart <;> rfl

/-! ## The steps of a completion -/

/-- What calls to a session work on: the session, its client and the time. The tokens are listed as
they are drawn, which no step depends on. -/
structure Desk (σ : Type) where
  session : Session
  client : σ
  now : Millis
  drawn : List UInt64

namespace Desk

/-- What tells which token is current, and which ones there are. -/
def tokens (d : Desk σ) : UInt64 × List UInt64 := (d.session.generation, d.drawn)

/-- Draw a token. -/
def draw (d : Desk σ) : UInt64 × Desk σ :=
  let (token, session) := d.session.begin
  (token, { d with session, drawn := d.drawn ++ [token] })

/-- Read the cache. -/
def read (r : Remote) (q : Question) (d : Desk σ) : Option (List String) × Desk σ :=
  let (found, cache) := d.session.shelf.read d.now r.base q
  (found, { d with session := d.session.putShelf cache })

/-- Ask the server. -/
def send (fetch : Fetch.Fetcher σ) (r : Remote) (q : Question) (d : Desk σ) :
    Except Failure (List String) × Desk σ :=
  let (reply, client) := r.request fetch q d.client
  (reply, { d with client })

/-- Take the reply in. -/
def settle (r : Remote) (q : Question) (reply : Except Failure (List String)) (d : Desk σ) :
    Except Failure Labels.Answer × Desk σ :=
  let (answer, cache) := r.settle d.now d.session.shelf q reply
  (answer, { d with session := d.session.putShelf cache })

end Desk

/-- What a session gets its answers from. -/
inductive Answerer (σ : Type) where
  /-- The source that the session names, over a fetcher. -/
  | named (fetch : Fetch.Fetcher σ)
  /-- A source of the host, which knows the session not. -/
  | foreign (answer : Question → Steps σ (Except Failure Labels.Answer))

namespace Answerer

/-- Ask a server, through the cache. -/
def askRemote (fetch : Fetch.Fetcher σ) (r : Remote) (q : Question) :
    Steps (Desk σ) (Except Failure Labels.Answer) := do
  match ← Steps.act (Desk.read r q) with
  | some values => return .ok ⟨values, .cache⟩
  | none =>
    let reply ← Steps.act (Desk.send fetch r q)
    Steps.act (Desk.settle r q reply)

/-- Answer a question. -/
def ask (a : Answerer σ) (q : Question) : Steps (Desk σ) (Except Failure Labels.Answer) :=
  match a with
  | .named fetch => do
    match ← Steps.look (·.session.provider) with
    | .none => return .error .notConfigured
    | .table labels => return .ok ⟨Labels.Provider.ofTable labels q, .remote⟩
    | .remote r => askRemote fetch r q
  | .foreign answer => (answer q).on Desk.client fun client d => { d with client }

/-- What comes after the token of a completion is drawn. -/
def offer (a : Answerer σ) (r : Request) : Steps (Desk σ) (Option Completion) := do
  if ← Steps.look (·.session.settings.completes) then
    r.complete? fun q => return Labels.valuesOf (← a.ask q)
  else return none

/-- Complete a text: draw a token, and offer something if completion is on. -/
def complete (a : Answerer σ) (r : Request) : Steps (Desk σ) (UInt64 × Option Completion) := do
  let token ← Steps.act Desk.draw
  return (token, ← a.offer r)

/-! ## Without interruption -/

theorem run_askRemote (fetch : Fetch.Fetcher σ) (r : Remote) (q : Question) (d : Desk σ) :
    (askRemote fetch r q).run d =
      let (answer, cache, client) := r.ask fetch d.now q d.session.shelf d.client
      (answer, { d with session := d.session.putShelf cache, client }) := by
  rw [askRemote, Steps.run_bind, Steps.run_act, Desk.read, Remote.ask]
  rcases d.session.shelf.read d.now r.base q with ⟨_ | values, cache⟩
  · -- the cache is put back twice, after the read and after the reply
    dsimp only
    rw [Steps.run_bind, Steps.run_act, Steps.run_act, Desk.send, Desk.settle]
    dsimp only
    rw [shelf_putShelf, putShelf_putShelf]
  · rfl

/-- Asked without interruption, the source that a session names answers as the session says. -/
theorem run_ask (fetch : Fetch.Fetcher σ) (q : Question) (d : Desk σ) :
    ((named fetch).ask q).run d =
      let (answer, session, client) := d.session.ask fetch d.now q d.client
      (answer, { d with session, client }) := by
  -- a source without a server leaves the cache as it is
  have hsame : ({ d with session := d.session.putShelf d.session.shelf } : Desk σ) = d := by
    rw [putShelf_shelf]
  rw [Session.ask_eq, ask, Steps.run_bind, Steps.look, Steps.run_act]
  dsimp only
  cases d.session.provider with
  | none => exact Prod.ext rfl hsame.symm
  | table labels => exact Prod.ext rfl hsame.symm
  | remote r => exact run_askRemote fetch r q d

/-- Completing in steps without interruption is completing with the answers on the spot. -/
theorem run_complete? (fetch : Fetch.Fetcher σ) (r : Request) (d : Desk σ) :
    (r.complete? fun q => return Labels.valuesOf (← (named fetch).ask q)).run d =
      let (offer, session, client) := (r.complete? (askM fetch d.now)).run (d.session, d.client)
      (offer, { d with session, client }) := by
  rw [Request.complete?, Request.complete?]
  cases r.context? with
  | none => rfl
  | some context =>
      dsimp only
      cases context.intent.question? with
      | none => rfl
      | some q =>
          dsimp only
          rw [Steps.run_bind, Steps.run_bind, run_ask]
          rfl

theorem run_offer (a : Answerer σ) (r : Request) (d : Desk σ) :
    (a.offer r).run d =
      if d.session.settings.completes then
        (r.complete? fun q => return Labels.valuesOf (← a.ask q)).run d
      else (none, d) := by
  rw [offer, Steps.run_bind, Steps.look, Steps.run_act]
  dsimp only
  split <;> rfl

/-- **Without interruption a completion in steps is `Session.complete`.** -/
theorem run_complete (fetch : Fetch.Fetcher σ) (r : Request) (d : Desk σ) :
    ((named fetch).complete r).run d =
      let (result, session, client) := d.session.complete fetch d.now r d.client
      (result, ⟨session, client, d.now, d.drawn ++ [d.session.begin.1]⟩) := by
  -- the settings are looked at after the draw, which does not change them
  have hsettings : d.draw.2.session.settings = d.session.settings := rfl
  rw [complete, Steps.run_bind, Steps.run_act, Steps.run_bind, Steps.run_pure, run_offer, hsettings,
    run_complete?]
  by_cases hon : d.session.settings.completes = true
  · have hcomplete : d.session.complete fetch d.now r d.client = _ := if_pos hon
    rw [if_pos hon, hcomplete]
    rfl
  · have hcomplete : d.session.complete fetch d.now r d.client = _ := if_neg hon
    rw [if_neg hon, hcomplete]
    rfl

end Answerer

end Session

end LogQL
