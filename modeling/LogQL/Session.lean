import LogQL.Completion
import LogQL.Diagnostic.Check
import LogQL.Labels.Provider
import LogQL.Settings.Failure

/-!
# An editor session

A session holds what one editor needs: its settings, a source of labels, a cache that no other
session shares, and a count of the requests made. Each request draws a token, and only the token
drawn last is current, so a host that has several requests under way can tell which result still
matters.

A request that asks a server takes time, so it has the two times of `Labels.Remote.ask`.
-/

namespace LogQL

/-- The state of an editor. -/
structure Session where
  settings : Settings
  provider : Labels.Provider
  cache : Cache.Labels
  /-- The cache of a source that does not share the one of the session. -/
  apart : Option Cache.Labels
  /-- The token drawn last. -/
  generation : UInt64

namespace Session

variable {σ : Type}

/-- A session that has asked for nothing yet. -/
def start (settings : Settings) (provider : Labels.Provider) (apart : Option Cache.Labels) :
    Session :=
  ⟨settings, provider, .empty ⟨settings.cacheLifetime⟩, apart, 0⟩

/-- A session with a given source of labels, which keeps a cache of its own. -/
def withProvider (settings : Settings) (provider : Labels.Provider) : Session :=
  start settings provider (some (.empty .default))

/-- The source of labels that the settings name. -/
def providerOf (settings : Settings) : Labels.Provider :=
  match settings.source with
  | some address => .remote (.ofAddress address settings.fetchOptions)
  | none => .none

/-- A session with the source of labels that the settings name. -/
def ofSettings (settings : Settings) : Session := start settings (providerOf settings) none

/-- A session with the source of labels that the settings name, and the client to ask it with;
neither, if the settings cannot be used. -/
def connect (settings : Settings) : Except Settings.Failure (Session × Fetch.Client) := do
  let settings ← settings.validate
  match Fetch.Client.make settings.connection with
  | .ok client => return (ofSettings settings, client)
  | .error cause => throw (.client cause)

/-- Draw a token. -/
def begin (s : Session) : UInt64 × Session :=
  (s.generation + 1, { s with generation := s.generation + 1 })

/-- Whether a token is the one drawn last. -/
def isCurrent (s : Session) (token : UInt64) : Bool := s.generation == token

/-- Put a question to the source of the session. -/
def ask (fetch : Fetch.Fetcher σ) (now : Millis) (q : Cache.Question) (s : Session) (w : σ)
    (later : Millis := now) : Except Labels.Failure Labels.Answer × Session × σ :=
  match s.apart with
  | none =>
    let (answer, cache, w) := s.provider.ask fetch now q s.cache w later
    (answer, { s with cache }, w)
  | some apart =>
    let (answer, apart, w) := s.provider.ask fetch now q apart w later
    (answer, { s with apart := some apart }, w)

/-- Put a question to the source, as a step that changes the session and what it fetches with. -/
def askM (fetch : Fetch.Fetcher σ) (now : Millis) (later : Millis := now) :
    Cache.Question → StateM (Session × σ) (List String) := fun q (s, w) =>
  let (answer, s, w) := s.ask fetch now q w later
  (Labels.valuesOf answer, s, w)

/-- Complete a text: draw a token, and offer something if completion is on. -/
def complete (fetch : Fetch.Fetcher σ) (now : Millis) (r : Request) (s : Session) (w : σ)
    (later : Millis := now) : (UInt64 × Option Completion) × Session × σ :=
  let (token, s) := s.begin
  if s.settings.completes then
    let (offer, s, w) := (r.complete? (askM fetch now later)).run (s, w)
    ((token, offer), s, w)
  else ((token, none), s, w)

/-- Check a text, if linting is on. -/
def lint (s : Session) (text : List Char) (tree : Option Tree) : List Diagnostic :=
  if s.settings.lints then Diagnostic.check s.settings.lint text tree else []

/-- Forget all labels. -/
def clearCache (s : Session) : Session := { s with cache := s.cache.clear }

/-- Forget the label names of one source, or of all of them. -/
def clearNames (s : Session) (source : Option String) : Session :=
  { s with cache := s.cache.clearNames (source.map Labels.trimBase) }

/-- Forget label values, as `Cache.Labels.clearValues` says. -/
def clearValues (s : Session) (source label : Option String) : Session :=
  { s with cache := s.cache.clearValues (source.map Labels.trimBase) label }

end Session

end LogQL
