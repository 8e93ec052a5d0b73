import LogQL.Json.Codec
import LogQL.Proofs.Json.Mentioned
import LogQL.Proofs.Settings.Fields
import LogQL.Settings.File

/-!
# What a document says about each setting

Settings are records within records, and a document may stop at any depth. `Leaf` lists what can be
set on its own, each with the fields that lead to it, so that a document can be asked for the value
it mentions for a leaf. Reading goes by records and not by leaves; that a leaf is nonetheless what
the document makes of it (`holds`) is shown record by record, from the equations for their fields.

**A document decides the settings that it mentions** and leaves the others as they are in the
standard settings, with one exception. The standard settings connect as `Config.interactive` does,
whose time limits are short, but a connection that a document speaks of is read over
`Config.standard`, whose limits are long. So a document that sets a proxy and nothing else also
changes both limits (`fallback`).
-/

namespace LogQL

namespace Settings

/-- One thing that can be set, with the type of its value. -/
inductive Leaf : Type → Type where
  | source : Leaf (Option String)
  | cacheLifetime : Leaf Millis
  | headers : Leaf (Dict String)
  | bearerToken : Leaf (Option String)
  | username : Leaf (Option String)
  | password : Leaf (Option String)
  | tenant : Leaf (Option String)
  | requestTimeout : Leaf (Option Millis)
  | completes : Leaf Bool
  | lints : Leaf Bool
  | rule (r : Diagnostic.Rule) : Leaf Bool
  | timeout : Leaf Millis
  | connectTimeout : Leaf Millis
  | proxy : Leaf (Option String)
  | userAgent : Leaf String
  | maxRedirects : Leaf UInt64
  | poolEnabled : Leaf Bool
  | poolIdleTimeout : Leaf Millis

/-- The fields of settings, in their order. -/
def fields : List String :=
  ["source", "cache_duration_ms", "fetch_options", "enable_completion", "linter_enabled", "lint",
    "http"]

/-- The fields of what is added to requests. -/
def requestFields : List String :=
  ["headers", "bearer_token", "basic_auth", "tenant_id", "timeout_ms"]

/-- The fields of a user name and password. -/
def credentialFields : List String := ["username", "password"]

/-- The fields of which rules are on. -/
def ruleFields : List String := ["quotes", "brackets", "parse_errors", "empty_selector"]

/-- The fields of how a client connects. -/
def connectionFields : List String :=
  ["timeout_ms", "connect_timeout_ms", "proxy", "user_agent", "max_redirects", "pool_enabled",
    "pool_idle_timeout_ms"]

namespace Leaf

variable {α : Type}

/-- Where a setting stands: the fields that lead to it, each among those of its record. -/
@[simp] def path : Leaf α → List (List String × String)
  | source => [(fields, "source")]
  | cacheLifetime => [(fields, "cache_duration_ms")]
  | headers => [(fields, "fetch_options"), (requestFields, "headers")]
  | bearerToken => [(fields, "fetch_options"), (requestFields, "bearer_token")]
  | username =>
    [(fields, "fetch_options"), (requestFields, "basic_auth"), (credentialFields, "username")]
  | password =>
    [(fields, "fetch_options"), (requestFields, "basic_auth"), (credentialFields, "password")]
  | tenant => [(fields, "fetch_options"), (requestFields, "tenant_id")]
  | requestTimeout => [(fields, "fetch_options"), (requestFields, "timeout_ms")]
  | completes => [(fields, "enable_completion")]
  | lints => [(fields, "linter_enabled")]
  | rule r => [(fields, "lint"), (ruleFields, Json.ruleName r)]
  | timeout => [(fields, "http"), (connectionFields, "timeout_ms")]
  | connectTimeout => [(fields, "http"), (connectionFields, "connect_timeout_ms")]
  | proxy => [(fields, "http"), (connectionFields, "proxy")]
  | userAgent => [(fields, "http"), (connectionFields, "user_agent")]
  | maxRedirects => [(fields, "http"), (connectionFields, "max_redirects")]
  | poolEnabled => [(fields, "http"), (connectionFields, "pool_enabled")]
  | poolIdleTimeout => [(fields, "http"), (connectionFields, "pool_idle_timeout_ms")]

/-- The value of a setting. -/
@[simp] def get (s : Settings) : Leaf α → α
  | source => s.source
  | cacheLifetime => s.cacheLifetime
  | headers => s.fetchOptions.headers
  | bearerToken => s.fetchOptions.bearerToken
  | username => s.fetchOptions.credentials.map (·.username)
  | password => s.fetchOptions.credentials.bind (·.password)
  | tenant => s.fetchOptions.tenant
  | requestTimeout => s.fetchOptions.timeout
  | completes => s.completes
  | lints => s.lints
  | rule r => s.lint.enables r
  | timeout => s.connection.timeout
  | connectTimeout => s.connection.connectTimeout
  | proxy => s.connection.proxy
  | userAgent => s.connection.userAgent
  | maxRedirects => s.connection.maxRedirects
  | poolEnabled => s.connection.poolEnabled
  | poolIdleTimeout => s.connection.poolIdleTimeout

/-- What a value in a document means for a setting. -/
@[simp] def read? (v : Json) : Leaf α → Option α
  | source | bearerToken | password | tenant | proxy => Document.optional? Json.text? v
  | cacheLifetime | timeout | connectTimeout | maxRedirects | poolIdleTimeout => v.word?
  | headers => v.texts?
  | username => v.text?.map some
  | requestTimeout => Document.optional? Json.word? v
  | completes | lints | rule _ | poolEnabled => v.flag?
  | userAgent => v.text?

/-- The value that a document mentions for a setting. -/
def mentioned? (doc : Json) (l : Leaf α) : Option Json :=
  l.path.foldl (fun v field => v.bind (·.mentioned? field.1 field.2)) (some doc)

end Leaf

/-- The time limits of a connection. -/
def Leaf.isLimit {α : Type} : Leaf α → Bool
  | .timeout | .connectTimeout => true
  | _ => false

/-- The value that a document mentions for the connection as a whole. -/
def connection? (doc : Json) : Option Json := doc.mentioned? fields "http"

/-- The settings that stand in for what a document does not mention. -/
def fallback (doc : Json) : Settings :=
  { standard with
    connection := if (connection? doc).isSome then Fetch.Config.standard else .interactive }

/-! ## Records of a document -/

section Records

variable {v : Json}

open Document (fieldOr? field? optional?)

theorem rule_of_document {o : Diagnostic.Options} (h : Diagnostic.Options.ofDocument? v = some o)
    (r : Diagnostic.Rule) :
    fieldOr? true Json.flag? (v.mentioned? ruleFields (Json.ruleName r)) = some (o.enables r) := by
  obtain ⟨_, _, _, _, hvalues, hquotes, hbrackets, hparse, hempty⟩ :=
    Diagnostic.Options.ofDocument?_eq_some_iff.mp h
  have hmentioned := Json.eq_mentioned?_of_fields? (by decide) hvalues
  simp only [List.map_cons, List.map_nil, List.cons.injEq, and_true] at hmentioned
  obtain ⟨rfl, rfl, rfl, rfl⟩ := hmentioned
  cases r with
  | quotes => exact hquotes
  | brackets => exact hbrackets
  | parseErrors => exact hparse
  | emptySelector => exact hempty

/-- A connection that a document speaks of is read field by field over `Config.standard`. -/
theorem connection_of_document {c : Fetch.Config} (h : Fetch.Config.ofDocument? v = some c) :
    fieldOr? Fetch.Config.standard.timeout Json.word?
        (v.mentioned? connectionFields "timeout_ms") = some c.timeout ∧
      fieldOr? Fetch.Config.standard.connectTimeout Json.word?
        (v.mentioned? connectionFields "connect_timeout_ms") = some c.connectTimeout ∧
      fieldOr? Fetch.Config.standard.proxy (optional? Json.text?)
        (v.mentioned? connectionFields "proxy") = some c.proxy ∧
      fieldOr? Fetch.Config.standard.userAgent Json.text?
        (v.mentioned? connectionFields "user_agent") = some c.userAgent ∧
      fieldOr? Fetch.Config.standard.maxRedirects Json.word?
        (v.mentioned? connectionFields "max_redirects") = some c.maxRedirects ∧
      fieldOr? Fetch.Config.standard.poolEnabled Json.flag?
        (v.mentioned? connectionFields "pool_enabled") = some c.poolEnabled ∧
      fieldOr? Fetch.Config.standard.poolIdleTimeout Json.word?
        (v.mentioned? connectionFields "pool_idle_timeout_ms") = some c.poolIdleTimeout := by
  obtain ⟨_, _, _, _, _, _, _, hvalues, hread⟩ := Fetch.Config.ofDocument?_eq_some_iff.mp h
  have hmentioned := Json.eq_mentioned?_of_fields? (by decide) hvalues
  simp only [List.map_cons, List.map_nil, List.cons.injEq, and_true] at hmentioned
  obtain ⟨rfl, rfl, rfl, rfl, rfl, rfl, rfl⟩ := hmentioned
  exact hread

theorem credentials_of_document {c : Fetch.Credentials}
    (h : Fetch.Credentials.ofDocument? v = some c) :
    field? Json.text? (v.mentioned? credentialFields "username") = some c.username ∧
      fieldOr? none (optional? Json.text?) (v.mentioned? credentialFields "password") =
        some c.password := by
  obtain ⟨_, _, hvalues, hread⟩ := Fetch.Credentials.ofDocument?_eq_some_iff.mp h
  have hmentioned := Json.eq_mentioned?_of_fields? (by decide) hvalues
  simp only [List.map_cons, List.map_nil, List.cons.injEq, and_true] at hmentioned
  obtain ⟨rfl, rfl⟩ := hmentioned
  exact hread

theorem requests_of_document {o : Fetch.Options} (h : Fetch.Options.ofDocument? v = some o) :
    fieldOr? .empty Json.texts? (v.mentioned? requestFields "headers") = some o.headers ∧
      fieldOr? none (optional? Json.text?) (v.mentioned? requestFields "bearer_token") =
        some o.bearerToken ∧
      fieldOr? none (optional? Fetch.Credentials.ofDocument?)
        (v.mentioned? requestFields "basic_auth") = some o.credentials ∧
      fieldOr? none (optional? Json.text?) (v.mentioned? requestFields "tenant_id") =
        some o.tenant ∧
      fieldOr? none (optional? Json.word?) (v.mentioned? requestFields "timeout_ms") =
        some o.timeout := by
  obtain ⟨_, _, _, _, _, hvalues, hread⟩ := Fetch.Options.ofDocument?_eq_some_iff.mp h
  have hmentioned := Json.eq_mentioned?_of_fields? (by decide) hvalues
  simp only [List.map_cons, List.map_nil, List.cons.injEq, and_true] at hmentioned
  obtain ⟨rfl, rfl, rfl, rfl, rfl⟩ := hmentioned
  exact hread

theorem settings_of_document {s : Settings} (h : ofDocument? v = some s) :
    fieldOr? standard.source (optional? Json.text?) (v.mentioned? fields "source") =
        some s.source ∧
      fieldOr? standard.cacheLifetime Json.word? (v.mentioned? fields "cache_duration_ms") =
        some s.cacheLifetime ∧
      fieldOr? standard.fetchOptions Fetch.Options.ofDocument?
        (v.mentioned? fields "fetch_options") = some s.fetchOptions ∧
      fieldOr? standard.completes Json.flag? (v.mentioned? fields "enable_completion") =
        some s.completes ∧
      fieldOr? standard.lints Json.flag? (v.mentioned? fields "linter_enabled") = some s.lints ∧
      fieldOr? standard.lint Diagnostic.Options.ofDocument? (v.mentioned? fields "lint") =
        some s.lint ∧
      fieldOr? standard.connection Fetch.Config.ofDocument? (v.mentioned? fields "http") =
        some s.connection := by
  obtain ⟨_, _, _, _, _, _, _, hvalues, hread⟩ := ofDocument?_eq_some_iff.mp h
  have hmentioned := Json.eq_mentioned?_of_fields? (by decide) hvalues
  simp only [List.map_cons, List.map_nil, List.cons.injEq, and_true] at hmentioned
  obtain ⟨rfl, rfl, rfl, rfl, rfl, rfl, rfl⟩ := hmentioned
  exact hread

end Records

section Leaves

variable {α : Type} {doc : Json} {s : Settings}

open Document (fieldOr? field? optional?)

/-- A setting is what a document makes of it: the value it mentions, or what stands in for it. -/
def Holds (doc : Json) (s : Settings) (l : Leaf α) : Prop :=
  fieldOr? (l.get (fallback doc)) (l.read? ·) (l.mentioned? doc) = some (l.get s)

theorem holds_rule (h : ofDocument? doc = some s) (r : Diagnostic.Rule) :
    Holds doc s (.rule r) := by
  obtain ⟨-, -, -, -, -, hlint, -⟩ := settings_of_document h
  cases hdoc : doc.mentioned? fields "lint" with
  | none =>
      rw [hdoc] at hlint
      have hstandard : s.lint = standard.lint := (Option.some.inj hlint).symm
      simp [Holds, Leaf.mentioned?, hdoc, hstandard, fallback, fieldOr?]
  | some v =>
      rw [hdoc] at hlint
      have hread := rule_of_document hlint r
      have hall : standard.lint.enables r = true := by cases r <;> rfl
      simpa [Holds, Leaf.mentioned?, hdoc, fallback, hall] using hread

theorem holds_connection (h : ofDocument? doc = some s) :
    Holds doc s .timeout ∧ Holds doc s .connectTimeout ∧ Holds doc s .proxy ∧
      Holds doc s .userAgent ∧ Holds doc s .maxRedirects ∧ Holds doc s .poolEnabled ∧
      Holds doc s .poolIdleTimeout := by
  obtain ⟨-, -, -, -, -, -, hconnection⟩ := settings_of_document h
  cases hdoc : doc.mentioned? fields "http" with
  | none =>
      rw [hdoc] at hconnection
      have hstandard : s.connection = .interactive := (Option.some.inj hconnection).symm
      simp [Holds, Leaf.mentioned?, hdoc, hstandard, fallback, connection?, fieldOr?]
  | some v =>
      rw [hdoc] at hconnection
      have hread := connection_of_document hconnection
      simpa [Holds, Leaf.mentioned?, hdoc, fallback, connection?] using hread

/-- A user name and password are either mentioned together or not there. -/
theorem holds_credentials {v : Json} (hdoc : doc.mentioned? fields "fetch_options" = some v)
    (h : fieldOr? none (optional? Fetch.Credentials.ofDocument?)
      (v.mentioned? requestFields "basic_auth") = some s.fetchOptions.credentials) :
    Holds doc s .username ∧ Holds doc s .password := by
  cases hauth : v.mentioned? requestFields "basic_auth" with
  | none =>
      rw [hauth] at h
      have hnone : s.fetchOptions.credentials = none := (Option.some.inj h).symm
      simp [Holds, Leaf.mentioned?, hdoc, hauth, hnone, fallback, standard, fieldOr?,
        Fetch.Options.none]
  | some w =>
      rw [hauth] at h
      rcases Json.optional?_eq_some h with ⟨rfl, hnone⟩ | ⟨c, hc, hsome⟩
      · -- `null` in their place takes them away, as if they had not been mentioned
        have hnull : ∀ name, Json.mentioned? credentialFields name .null = none := fun _ => rfl
        simp [Holds, Leaf.mentioned?, hdoc, hauth, hnull, hnone, fallback, standard, fieldOr?,
          Fetch.Options.none]
      · obtain ⟨husername, hpassword⟩ := credentials_of_document hc
        constructor
        · cases hname : w.mentioned? credentialFields "username" with
          | none =>
              -- credentials without a user name are refused
              rw [hname] at husername
              cases husername
          | some u =>
              rw [hname] at husername
              have hu : u.text? = some c.username := husername
              simp [Holds, Leaf.mentioned?, hdoc, hauth, hname, hsome, hu, fieldOr?]
        · simpa [Holds, Leaf.mentioned?, hdoc, hauth, hsome, fallback, standard,
            Fetch.Options.none] using hpassword

theorem holds_requests (h : ofDocument? doc = some s) :
    (Holds doc s .headers ∧ Holds doc s .bearerToken ∧ Holds doc s .tenant ∧
      Holds doc s .requestTimeout) ∧ Holds doc s .username ∧ Holds doc s .password := by
  obtain ⟨-, -, hfetch, -⟩ := settings_of_document h
  cases hdoc : doc.mentioned? fields "fetch_options" with
  | none =>
      rw [hdoc] at hfetch
      have hstandard : s.fetchOptions = .none := (Option.some.inj hfetch).symm
      simp [Holds, Leaf.mentioned?, hdoc, hstandard, fallback, standard, fieldOr?,
        Fetch.Options.none]
  | some v =>
      rw [hdoc] at hfetch
      obtain ⟨hheaders, hbearer, hcredentials, htenant, htimeout⟩ := requests_of_document hfetch
      refine ⟨?_, holds_credentials hdoc hcredentials⟩
      simpa [Holds, Leaf.mentioned?, hdoc, fallback, standard, Fetch.Options.none]
        using ⟨hheaders, hbearer, htenant, htimeout⟩

/-- What a document says of a setting determines it. -/
theorem holds (h : ofDocument? doc = some s) (l : Leaf α) : Holds doc s l := by
  obtain ⟨hsource, hlifetime, -, hcompletes, hlints, -, -⟩ := settings_of_document h
  obtain ⟨⟨hheaders, hbearer, htenant, htimeout⟩, husername, hpassword⟩ := holds_requests h
  obtain ⟨hlimit, hconnect, hproxy, hagent, hredirects, hpool, hidle⟩ := holds_connection h
  cases l with
  | source => exact hsource
  | cacheLifetime => exact hlifetime
  | headers => exact hheaders
  | bearerToken => exact hbearer
  | username => exact husername
  | password => exact hpassword
  | tenant => exact htenant
  | requestTimeout => exact htimeout
  | completes => exact hcompletes
  | lints => exact hlints
  | rule r => exact holds_rule h r
  | timeout => exact hlimit
  | connectTimeout => exact hconnect
  | proxy => exact hproxy
  | userAgent => exact hagent
  | maxRedirects => exact hredirects
  | poolEnabled => exact hpool
  | poolIdleTimeout => exact hidle

end Leaves

/-! ## Settings in a text -/

section Extensionality

variable {s s' : Settings} (h : ∀ (α : Type) (l : Leaf α), l.get s = l.get s')

include h

theorem credentials_eq_of_leaves : s.fetchOptions.credentials = s'.fetchOptions.credentials := by
  have husername := h _ .username
  have hpassword := h _ .password
  simp only [Leaf.get] at husername hpassword
  cases hs : s.fetchOptions.credentials with
  | none =>
      rw [hs] at husername
      exact (Option.map_eq_none_iff.mp husername.symm).symm
  | some c =>
      cases hs' : s'.fetchOptions.credentials with
      | none =>
          rw [hs, hs'] at husername
          cases husername
      | some c' =>
          rw [hs, hs'] at husername hpassword
          obtain ⟨name, password⟩ := c
          obtain ⟨name', password'⟩ := c'
          have hname : name = name' := Option.some.inj husername
          have hword : password = password' := hpassword
          rw [hname, hword]

theorem fetchOptions_eq_of_leaves : s.fetchOptions = s'.fetchOptions := by
  have hheaders : s.fetchOptions.headers = s'.fetchOptions.headers := h _ .headers
  have hbearer : s.fetchOptions.bearerToken = s'.fetchOptions.bearerToken := h _ .bearerToken
  have htenant : s.fetchOptions.tenant = s'.fetchOptions.tenant := h _ .tenant
  have htimeout : s.fetchOptions.timeout = s'.fetchOptions.timeout := h _ .requestTimeout
  have hcredentials := credentials_eq_of_leaves h
  show (⟨s.fetchOptions.headers, s.fetchOptions.bearerToken, s.fetchOptions.credentials,
    s.fetchOptions.tenant, s.fetchOptions.timeout⟩ : Fetch.Options) = _
  rw [hheaders, hbearer, hcredentials, htenant, htimeout]

theorem lint_eq_of_leaves : s.lint = s'.lint := by
  have hquotes : s.lint.quotes = s'.lint.quotes := h _ (.rule .quotes)
  have hbrackets : s.lint.brackets = s'.lint.brackets := h _ (.rule .brackets)
  have hparse : s.lint.parseErrors = s'.lint.parseErrors := h _ (.rule .parseErrors)
  have hempty : s.lint.emptySelector = s'.lint.emptySelector := h _ (.rule .emptySelector)
  show (⟨s.lint.quotes, s.lint.brackets, s.lint.parseErrors, s.lint.emptySelector⟩ :
    Diagnostic.Options) = _
  rw [hquotes, hbrackets, hparse, hempty]

theorem connection_eq_of_leaves : s.connection = s'.connection := by
  have htimeout : s.connection.timeout = s'.connection.timeout := h _ .timeout
  have hconnect : s.connection.connectTimeout = s'.connection.connectTimeout := h _ .connectTimeout
  have hproxy : s.connection.proxy = s'.connection.proxy := h _ .proxy
  have hagent : s.connection.userAgent = s'.connection.userAgent := h _ .userAgent
  have hredirects : s.connection.maxRedirects = s'.connection.maxRedirects := h _ .maxRedirects
  have hpool : s.connection.poolEnabled = s'.connection.poolEnabled := h _ .poolEnabled
  have hidle : s.connection.poolIdleTimeout = s'.connection.poolIdleTimeout := h _ .poolIdleTimeout
  show (⟨s.connection.timeout, s.connection.connectTimeout, s.connection.proxy,
    s.connection.userAgent, s.connection.maxRedirects, s.connection.poolEnabled,
    s.connection.poolIdleTimeout⟩ : Fetch.Config) = _
  rw [htimeout, hconnect, hproxy, hagent, hredirects, hpool, hidle]

/-- **Nothing can be set but by the leaves.** -/
theorem ext_of_leaves : s = s' := by
  have hsource : s.source = s'.source := h _ .source
  have hlifetime : s.cacheLifetime = s'.cacheLifetime := h _ .cacheLifetime
  have hcompletes : s.completes = s'.completes := h _ .completes
  have hlints : s.lints = s'.lints := h _ .lints
  show (⟨s.source, s.cacheLifetime, s.fetchOptions, s.completes, s.lints, s.lint, s.connection⟩ :
    Settings) = _
  rw [hsource, hlifetime, fetchOptions_eq_of_leaves h, hcompletes, hlints, lint_eq_of_leaves h,
    connection_eq_of_leaves h]

end Extensionality

theorem get_fallback {α : Type} {doc : Json} (l : Leaf α)
    (h : l.isLimit = false ∨ connection? doc = none) : l.get (fallback doc) = l.get standard := by
  rcases h with h | h
  · cases l with
    | timeout => cases h
    | connectTimeout => cases h
    | proxy | userAgent | maxRedirects | poolEnabled | poolIdleTimeout =>
        -- the two connections differ in their limits alone
        simp only [Leaf.get, fallback]
        split <;> rfl
    | _ => rfl
  · have hdoc : fallback doc = standard := by
      rw [fallback, h]
      rfl
    rw [hdoc]

theorem get_of_holds {α : Type} {doc : Json} {s : Settings} {l : Leaf α} (h : Holds doc s l) :
    (∀ v, l.mentioned? doc = some v → l.read? v = some (l.get s)) ∧
      (l.mentioned? doc = none → l.get s = l.get (fallback doc)) := by
  constructor
  · intro v hv
    rw [Holds, hv] at h
    exact h
  · intro hnone
    rw [Holds, hnone] at h
    exact (Option.some.inj h).symm

theorem eq_of_validate {s s' : Settings} (h : s.validate = .ok s') : s = s' := by
  rw [validate] at h
  split at h
  · cases h
  · exact Except.ok.inj h

/-- Settings that a JSON text holds are those of its document, as they are. -/
theorem exists_document {text : String} {s : Settings} (h : read .json text = .ok s) :
    ∃ doc, Json.read? text = some doc ∧ ofDocument? doc = some s := by
  rw [read] at h
  split at h
  · rename_i s' hdoc
    rw [eq_of_validate h] at hdoc
    exact Option.bind_eq_some_iff.mp hdoc
  · cases h

/-- **A document decides the settings that it mentions.** A setting that it does not mention is
standard, unless it is a time limit of a connection that the document speaks of; then it is the limit
of `Config.standard`. So whatever else two documents say, a setting for which they mention the same
value, or none, is the same for both, unless it is a limit and just one of them speaks of the
connection. -/
theorem read_json_explained {text : String} {s : Settings} (h : read .json text = .ok s) :
    ∃ doc, Json.read? text = some doc ∧
      (∀ (α : Type) (l : Leaf α),
        (∀ v, l.mentioned? doc = some v → l.read? v = some (l.get s)) ∧
        (l.mentioned? doc = none → l.isLimit = false ∨ connection? doc = none →
          l.get s = l.get standard)) ∧
      (connection? doc ≠ none →
        (Leaf.timeout.mentioned? doc = none →
          s.connection.timeout = Fetch.Config.standard.timeout) ∧
        (Leaf.connectTimeout.mentioned? doc = none →
          s.connection.connectTimeout = Fetch.Config.standard.connectTimeout)) ∧
      ∀ text' s' doc', read .json text' = .ok s' → Json.read? text' = some doc' →
        ∀ (α : Type) (l : Leaf α), l.mentioned? doc' = l.mentioned? doc →
          (l.isLimit = true → (connection? doc').isSome = (connection? doc).isSome) →
          l.get s' = l.get s := by
  obtain ⟨doc, hread, hdoc⟩ := exists_document h
  have hleaf := fun (α : Type) (l : Leaf α) => get_of_holds (holds hdoc l)
  refine ⟨doc, hread, fun α l => ⟨(hleaf α l).1, fun hnone hstandard => ?_⟩, fun hsome => ?_, ?_⟩
  · rw [(hleaf α l).2 hnone, get_fallback l hstandard]
  · have hlimits : (fallback doc).connection = .standard := by
      rw [fallback, Option.isSome_iff_ne_none.mpr hsome]
      rfl
    exact ⟨fun hnone => ((hleaf _ .timeout).2 hnone).trans (congrArg Fetch.Config.timeout hlimits),
      fun hnone => ((hleaf _ .connectTimeout).2 hnone).trans
        (congrArg Fetch.Config.connectTimeout hlimits)⟩
  · intro text' s' doc' h' hread' α l hmentioned hlimit
    obtain ⟨doc'', hread'', hdoc'⟩ := exists_document h'
    obtain rfl : doc'' = doc' := Option.some.inj (hread''.symm.trans hread')
    have hleaf' := get_of_holds (holds hdoc' l)
    cases hv : l.mentioned? doc with
    | some v =>
        have hget := hleaf'.1 v (hmentioned.trans hv)
        exact Option.some.inj (hget.symm.trans ((hleaf α l).1 v hv))
    | none =>
        rw [hleaf'.2 (hmentioned.trans hv), (hleaf α l).2 hv]
        cases hl : l.isLimit with
        | false => rw [get_fallback l (.inl hl), get_fallback l (.inl hl)]
        | true => rw [fallback, fallback, hlimit hl]

/-- A document that sets a proxy for the connection and nothing else. -/
def onlyProxy : String := "\x7b\"http\":\x7b\"proxy\":\"http://p:1\"\x7d\x7d"

/-- The settings of that document. -/
def onlyProxySettings : Settings :=
  { standard with connection := { Fetch.Config.standard with proxy := some "http://p:1" } }

theorem read_onlyProxy : read .json onlyProxy = .ok onlyProxySettings := rfl

/-- The number of redirects stays standard with that document, the time limit does not. -/
theorem read_json_explained_onlyProxy :
    read .json onlyProxy = .ok onlyProxySettings ∧
      onlyProxySettings.connection.maxRedirects = standard.connection.maxRedirects ∧
      onlyProxySettings.connection.timeout = Fetch.Config.standard.timeout := by
  obtain ⟨doc, hdoc, hleaf, hlimits, -⟩ := read_json_explained read_onlyProxy
  obtain rfl : Json.object [(some "http", .object [(some "proxy", .str "http://p:1")])] = doc :=
    Option.some.inj hdoc
  exact ⟨read_onlyProxy, (hleaf _ .maxRedirects).2 rfl (Or.inl rfl),
    (hlimits (by decide)).1 rfl⟩

/-- With that document, which mentions no time limit, the time limit is not the standard one. -/
theorem not_standard_of_unmentioned :
    ¬∀ text s doc, read .json text = .ok s → Json.read? text = some doc →
      ∀ (α : Type) (l : Leaf α), l.mentioned? doc = none → l.get s = l.get standard := by
  intro h
  have hstandard := h onlyProxy onlyProxySettings _ rfl rfl _ .timeout rfl
  exact absurd hstandard (by decide)

end Settings

end LogQL
