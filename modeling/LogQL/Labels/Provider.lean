import LogQL.Cache.Labels
import LogQL.Fetch.Client
import LogQL.Labels.Reply
import LogQL.Text.Words

/-!
# Where labels come from

A provider answers questions about labels: not at all, from a fixed table, or from a server through
a cache. Asking a server takes three steps: the cache is read; if it has nothing fresh, the server
is asked; if its reply can be read, the answer is stored. The steps are definitions of their own,
since other questions may be under way between them. The clock is read anew for the last of them, so
asking has two times: `now`, when the cache is read, and `later`, when a reply is taken in. They are
the same if the server takes no time, which is understood where `later` is left out.

A question that fails leaves the cache as it was, but for the count of the read.
-/

namespace LogQL.Labels

open Cache (Question)

/-- A server that knows labels. -/
structure Remote where
  /-- The address that those of all questions begin with. -/
  base : String
  options : Fetch.Options
  deriving DecidableEq, Inhabited

/-- An address without the slashes at its end. -/
def trimBase (address : String) : String :=
  String.ofList (Text.dropTrailing (· == '/') address.toList)

namespace Remote

/-- The server at an address. Slashes at its end do not count. -/
def ofAddress (address : String) (options : Fetch.Options) : Remote := ⟨trimBase address, options⟩

/-- The address of a question. -/
def address (r : Remote) : Question → String
  | .names => r.base ++ "/loki/api/v1/labels"
  | .values label =>
    r.base ++ "/loki/api/v1/label/" ++ String.ofList (Url.Percent.encode label.toList) ++ "/values"

end Remote

/-- Where an answer comes from. -/
inductive Origin where
  | cache
  | remote
  deriving DecidableEq, Repr, Inhabited

/-- An answer. -/
structure Answer where
  values : List String
  origin : Origin
  deriving DecidableEq, Repr, Inhabited

namespace Remote

variable {σ : Type}

/-- Ask the server. -/
def request (r : Remote) (fetch : Fetch.Fetcher σ) (q : Question) (s : σ) :
    Except Failure (List String) × σ :=
  match fetch (r.address q) r.options s with
  | (.error failure, s) => (.error (.fetch failure), s)
  | (.ok body, s) => (readReply body, s)

/-- Take in what the server said: store an answer. -/
def settle (r : Remote) (now : Millis) (cache : Cache.Labels) (q : Question) :
    Except Failure (List String) → Except Failure Answer × Cache.Labels
  | .ok values => (.ok ⟨values, .remote⟩, cache.store now r.base q values)
  | .error failure => (.error failure, cache)

/-- Answer a question from the cache, or else from the server. -/
def ask (r : Remote) (fetch : Fetch.Fetcher σ) (now : Millis) (q : Question)
    (cache : Cache.Labels) (s : σ) (later : Millis := now) :
    Except Failure Answer × Cache.Labels × σ :=
  match cache.read now r.base q with
  | (some values, cache) => (.ok ⟨values, .cache⟩, cache, s)
  | (none, cache) =>
    let (reply, s) := r.request fetch q s
    let (answer, cache) := r.settle later cache q reply
    (answer, cache, s)

end Remote

/-- A source of labels. -/
inductive Provider where
  /-- No source: every question fails. -/
  | none
  /-- A table of labels and their values. -/
  | table (labels : Dict (List String))
  | remote (r : Remote)
  deriving Inhabited

namespace Provider

variable {σ : Type}

/-- The name of a provider. -/
def name : Provider → String
  | .none => "none"
  | .table _ => "static"
  | .remote r => r.base

/-- The answer of a table. -/
def ofTable (labels : Dict (List String)) : Question → List String
  | .names => labels.keys
  | .values label => (labels.get? label).getD []

/-- Answer a question. -/
def ask (p : Provider) (fetch : Fetch.Fetcher σ) (now : Millis) (q : Question)
    (cache : Cache.Labels) (s : σ) (later : Millis := now) :
    Except Failure Answer × Cache.Labels × σ :=
  match p with
  | .none => (.error .notConfigured, cache, s)
  | .table labels => (.ok ⟨ofTable labels q, .remote⟩, cache, s)
  | .remote r => r.ask fetch now q cache s later

end Provider

/-- The values of an answer; a failure is as good as no values. -/
def valuesOf : Except Failure Answer → List String
  | .ok answer => answer.values
  | .error _ => []

end LogQL.Labels
