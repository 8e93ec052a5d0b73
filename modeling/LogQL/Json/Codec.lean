import LogQL.Cache.Counters
import LogQL.Completion
import LogQL.Diagnostic.Position
import LogQL.Json.Reader
import LogQL.Json.Writer
import LogQL.Settings.Basic

/-!
# Values as JSON

Each kind of value that leaves or enters as JSON has an encoding and the reading that undoes it.
Reading is more liberal than writing: a record may be an array of its fields, a bare name may be
an object with that one key, and fields with a standard value may be left out.
-/

namespace LogQL

namespace Json

/-- A type whose values can be written as JSON and read back. -/
class Codec (α : Type) where
  encode : α → Json
  decode? : Json → Option α

open Codec Document

/-! ## Simple values -/

instance : Codec String := ⟨str, text?⟩

instance : Codec Bool := ⟨.bool, flag?⟩

instance : Codec UInt64 := ⟨fun n => nat n.toNat, word?⟩

instance : Codec UInt32 := ⟨fun n => nat n.toNat, fun v => (v.natUpTo? 0xFFFFFFFF).map Nat.toUInt32⟩

/-- Offsets and indices are written as numbers and read if they fit into 64 bits. -/
instance : Codec Nat := ⟨nat, natUpTo? wordMax⟩

instance {α : Type} [Codec α] : Codec (Option α) :=
  ⟨ofOption encode, optional? decode?⟩

instance {α : Type} [Codec α] : Codec (List α) :=
  ⟨fun xs => .array (xs.map encode), fun v => do (← v.items?).mapM decode?⟩

instance : Codec (Dict String) :=
  ⟨fun d => obj (d.entries.map fun e => (e.1, str e.2)), texts?⟩

/-! ## Names -/

/-- The name that a value gives: a string, or the only key of an object whose value is `null`. -/
def name? : Json → Option String
  | .string s => s
  | .object [(k, .null)] => k
  | _ => none

/-- The value that has a name, among all values of a type. -/
def named? {α : Type} (all : List α) (name : α → String) (v : Json) : Option α := do
  let s ← v.name?
  all.find? (name · = s)

/-- The name of a kind of word. -/
def wordKindName : WordKind → String
  | .keyword => "keyword"
  | .function => "function"
  | .operator => "operator"
  | .time => "time"
  | .label => "label"
  | .value => "value"

instance : Codec WordKind where
  encode k := str (wordKindName k)
  decode? := named? [.keyword, .function, .operator, .time, .label, .value] wordKindName

instance : Codec Diagnostic.Severity where
  encode s := str s.word
  decode? := named? [.error, .warning] Diagnostic.Severity.word

/-- The name of a rule. -/
def ruleName : Diagnostic.Rule → String
  | .quotes => "quotes"
  | .brackets => "brackets"
  | .parseErrors => "parse_errors"
  | .emptySelector => "empty_selector"

instance : Codec Diagnostic.Rule where
  encode r := str (ruleName r)
  decode? := named? [.quotes, .brackets, .parseErrors, .emptySelector] ruleName

/-- The name of a style of quotes. -/
def quoteStyleName : Context.QuoteStyle → String
  | .single => "Single"
  | .double => "Double"

instance : Codec Context.QuoteStyle where
  encode q := str (quoteStyleName q)
  decode? := named? [.single, .double] quoteStyleName

/-- The name of a kind of node that has a name of its own. -/
def nodeKindName : Tree.Kind → String
  | .labelMatcher => "LabelMatcher"
  | .labelName => "LabelName"
  | .string => "String"
  | .operator => "Operator"
  | .pipeline => "PipelineExpr"
  | .selector => "Selector"
  | .error => "Error"
  | .other name => name

instance : Codec Tree.Kind where
  encode
    | .other name => obj [("Other", str name)]
    | k => str (nodeKindName k)
  decode?
    | .object [(some "Other", v)] => v.text?.map .other
    | v =>
      named? [.labelMatcher, .labelName, .string, .operator, .pipeline, .selector, .error]
        nodeKindName v

/-! ## Records -/

instance : Codec Tree.Span where
  encode s := obj [("from", encode s.start), ("to", encode s.stop)]
  decode? v := do
    let [start, stop] ← fields? ["from", "to"] v | none
    return ⟨← field? decode? start, ← field? decode? stop⟩

instance : Codec Position where
  encode p := obj [("line", encode p.line), ("character", encode p.character)]
  decode? v := do
    let [line, character] ← fields? ["line", "character"] v | none
    return ⟨← field? decode? line, ← field? decode? character⟩

instance : Codec Position.Range where
  encode r := obj [("start", encode r.start), ("end", encode r.stop)]
  decode? v := do
    let [start, stop] ← fields? ["start", "end"] v | none
    return ⟨← field? decode? start, ← field? decode? stop⟩

instance : Codec Diagnostic where
  encode d := obj
    [("from", encode d.start), ("to", encode d.stop), ("severity", encode d.severity),
      ("message", encode d.message), ("rule", encode d.rule)]
  decode? v := do
    let [start, stop, severity, message, rule] ←
      fields? ["from", "to", "severity", "message", "rule"] v | none
    return ⟨← field? decode? start, ← field? decode? stop, ← field? decode? severity,
      ← field? decode? message, ← field? decode? rule⟩

instance : Codec Diagnostic.Options where
  encode o := obj
    [("quotes", encode o.quotes), ("brackets", encode o.brackets),
      ("parse_errors", encode o.parseErrors), ("empty_selector", encode o.emptySelector)]
  decode? := Diagnostic.Options.ofDocument?

/-- A member for a value that is there, and none otherwise. -/
def given {α : Type} [Codec α] (key : String) (value : Option α) : List (String × Json) :=
  (value.map fun v => (key, encode v)).toList

instance : Codec Suggestion where
  encode s := obj
    ([("label", encode s.label), ("kind", encode s.kind)] ++ given "description" s.description
      ++ given "insert_text" s.insertText)
  decode? v := do
    let [label, kind, description, insertText] ←
      fields? ["label", "kind", "description", "insert_text"] v | none
    return ⟨← field? decode? label, ← field? decode? kind,
      ← fieldOr? none decode? description, ← fieldOr? none decode? insertText⟩

instance : Codec Completion where
  encode c := obj [("anchor", encode c.anchor), ("suggestions", encode c.suggestions)]
  decode? v := do
    let [anchor, suggestions] ← fields? ["anchor", "suggestions"] v | none
    return ⟨← field? decode? anchor, ← field? decode? suggestions⟩

instance {α : Type} [Codec α] : Codec (Cache.Entry α) where
  encode e := obj [("data", encode e.data), ("fetched_at_millis", encode e.storedAt)]
  decode? v := do
    let [data, storedAt] ← fields? ["data", "fetched_at_millis"] v | none
    return ⟨← field? decode? data, ← field? decode? storedAt⟩

instance : Codec Lifetime where
  encode l := obj [("ttl_millis", encode l.millis)]
  decode? v := do
    let [millis] ← fields? ["ttl_millis"] v | none
    return ⟨← field? decode? millis⟩

instance : Codec Cache.Counters where
  encode c := obj
    [("hits", encode c.hits), ("misses", encode c.misses), ("stale_hits", encode c.staleHits),
      ("stores", encode c.stores)]
  decode? v := do
    let [hits, misses, staleHits, stores] ←
      fields? ["hits", "misses", "stale_hits", "stores"] v | none
    return ⟨← field? decode? hits, ← field? decode? misses, ← field? decode? staleHits,
      ← field? decode? stores⟩

/-! ## Settings -/

instance : Codec Fetch.Config where
  encode c := obj
    [("timeout_ms", encode c.timeout), ("connect_timeout_ms", encode c.connectTimeout),
      ("proxy", encode c.proxy), ("user_agent", encode c.userAgent),
      ("max_redirects", encode c.maxRedirects), ("pool_enabled", encode c.poolEnabled),
      ("pool_idle_timeout_ms", encode c.poolIdleTimeout)]
  decode? := Fetch.Config.ofDocument?

instance : Codec Fetch.Credentials where
  encode c := obj [("username", encode c.username), ("password", encode c.password)]
  decode? := Fetch.Credentials.ofDocument?

instance : Codec Fetch.Options where
  encode o := obj
    [("headers", encode o.headers), ("bearer_token", encode o.bearerToken),
      ("basic_auth", encode o.credentials), ("tenant_id", encode o.tenant),
      ("timeout_ms", encode o.timeout)]
  decode? := Fetch.Options.ofDocument?

instance : Codec Settings where
  encode s := obj
    [("source", encode s.source), ("cache_duration_ms", encode s.cacheLifetime),
      ("fetch_options", encode s.fetchOptions), ("enable_completion", encode s.completes),
      ("linter_enabled", encode s.lints), ("lint", encode s.lint), ("http", encode s.connection)]
  decode? := Settings.ofDocument?

/-- The value that a text holds. -/
def parse? {α : Type} [Codec α] (text : String) : Option α := (read? text).bind decode?

end Json

end LogQL
