import LogQL.Settings.Basic

/-!
# The fields that settings are read from

A record is read in two steps: a document is asked for the values of the record's fields, and each
field is read from its value. So a record that is read is described by the values of its fields, one
equation for each (`Settings.ofDocument?_eq_some_iff` and its likes), in every notation.
-/

namespace LogQL

open Document

variable {ν : Type} [Document ν] {v : ν}

theorem Diagnostic.Options.ofDocument?_eq_some_iff {o : Diagnostic.Options} :
    Diagnostic.Options.ofDocument? v = some o ↔
      ∃ quotes brackets parseErrors emptySelector,
        fields? ["quotes", "brackets", "parse_errors", "empty_selector"] v =
          some [quotes, brackets, parseErrors, emptySelector] ∧
        fieldOr? true flag? quotes = some o.quotes ∧
        fieldOr? true flag? brackets = some o.brackets ∧
        fieldOr? true flag? parseErrors = some o.parseErrors ∧
        fieldOr? true flag? emptySelector = some o.emptySelector := by
  constructor
  · intro h
    obtain ⟨values, hvalues, h⟩ := Option.bind_eq_some_iff.mp h
    split at h
    · simp only [Option.bind_eq_bind, Option.bind_eq_some_iff] at h
      obtain ⟨_, hquotes, _, hbrackets, _, hparse, _, hempty, h⟩ := h
      cases h
      exact ⟨_, _, _, _, hvalues, hquotes, hbrackets, hparse, hempty⟩
    · cases h
  · rintro ⟨_, _, _, _, hvalues, hquotes, hbrackets, hparse, hempty⟩
    simp [ofDocument?, hvalues, hquotes, hbrackets, hparse, hempty]

theorem Fetch.Config.ofDocument?_eq_some_iff {c : Fetch.Config} :
    Fetch.Config.ofDocument? v = some c ↔
      ∃ timeout connectTimeout proxy userAgent maxRedirects poolEnabled poolIdleTimeout,
        fields? ["timeout_ms", "connect_timeout_ms", "proxy", "user_agent", "max_redirects",
          "pool_enabled", "pool_idle_timeout_ms"] v = some [timeout, connectTimeout, proxy,
            userAgent, maxRedirects, poolEnabled, poolIdleTimeout] ∧
        fieldOr? Config.standard.timeout word? timeout = some c.timeout ∧
        fieldOr? Config.standard.connectTimeout word? connectTimeout = some c.connectTimeout ∧
        fieldOr? Config.standard.proxy (optional? text?) proxy = some c.proxy ∧
        fieldOr? Config.standard.userAgent text? userAgent = some c.userAgent ∧
        fieldOr? Config.standard.maxRedirects word? maxRedirects = some c.maxRedirects ∧
        fieldOr? Config.standard.poolEnabled flag? poolEnabled = some c.poolEnabled ∧
        fieldOr? Config.standard.poolIdleTimeout word? poolIdleTimeout =
          some c.poolIdleTimeout := by
  constructor
  · intro h
    obtain ⟨values, hvalues, h⟩ := Option.bind_eq_some_iff.mp h
    split at h
    · simp only [Option.bind_eq_bind, Option.bind_eq_some_iff] at h
      obtain ⟨_, htimeout, _, hconnect, _, hproxy, _, hagent, _, hredirects, _, hpool, _, hidle,
        h⟩ := h
      cases h
      exact ⟨_, _, _, _, _, _, _, hvalues, htimeout, hconnect, hproxy, hagent, hredirects, hpool,
        hidle⟩
    · cases h
  · rintro ⟨_, _, _, _, _, _, _, hvalues, htimeout, hconnect, hproxy, hagent, hredirects, hpool,
      hidle⟩
    simp [ofDocument?, hvalues, htimeout, hconnect, hproxy, hagent, hredirects, hpool, hidle]

theorem Fetch.Credentials.ofDocument?_eq_some_iff {c : Fetch.Credentials} :
    Fetch.Credentials.ofDocument? v = some c ↔
      ∃ username password,
        fields? ["username", "password"] v = some [username, password] ∧
        field? text? username = some c.username ∧
        fieldOr? none (optional? text?) password = some c.password := by
  constructor
  · intro h
    obtain ⟨values, hvalues, h⟩ := Option.bind_eq_some_iff.mp h
    split at h
    · simp only [Option.bind_eq_bind, Option.bind_eq_some_iff] at h
      obtain ⟨_, husername, _, hpassword, h⟩ := h
      cases h
      exact ⟨_, _, hvalues, husername, hpassword⟩
    · cases h
  · rintro ⟨_, _, hvalues, husername, hpassword⟩
    simp [ofDocument?, hvalues, husername, hpassword]

theorem Fetch.Options.ofDocument?_eq_some_iff {o : Fetch.Options} :
    Fetch.Options.ofDocument? v = some o ↔
      ∃ headers bearerToken credentials tenant timeout,
        fields? ["headers", "bearer_token", "basic_auth", "tenant_id", "timeout_ms"] v =
          some [headers, bearerToken, credentials, tenant, timeout] ∧
        fieldOr? .empty texts? headers = some o.headers ∧
        fieldOr? Option.none (optional? text?) bearerToken = some o.bearerToken ∧
        fieldOr? Option.none (optional? Credentials.ofDocument?) credentials =
          some o.credentials ∧
        fieldOr? Option.none (optional? text?) tenant = some o.tenant ∧
        fieldOr? Option.none (optional? word?) timeout = some o.timeout := by
  constructor
  · intro h
    obtain ⟨values, hvalues, h⟩ := Option.bind_eq_some_iff.mp h
    split at h
    · simp only [Option.bind_eq_bind, Option.bind_eq_some_iff] at h
      obtain ⟨_, hheaders, _, hbearer, _, hcredentials, _, htenant, _, htimeout, h⟩ := h
      cases h
      exact ⟨_, _, _, _, _, hvalues, hheaders, hbearer, hcredentials, htenant, htimeout⟩
    · cases h
  · rintro ⟨_, _, _, _, _, hvalues, hheaders, hbearer, hcredentials, htenant, htimeout⟩
    simp [ofDocument?, hvalues, hheaders, hbearer, hcredentials, htenant, htimeout]

theorem Settings.ofDocument?_eq_some_iff {s : Settings} :
    Settings.ofDocument? v = some s ↔
      ∃ source cacheLifetime fetchOptions completes lints lint connection,
        fields? ["source", "cache_duration_ms", "fetch_options", "enable_completion",
          "linter_enabled", "lint", "http"] v =
          some [source, cacheLifetime, fetchOptions, completes, lints, lint, connection] ∧
        fieldOr? standard.source (optional? text?) source = some s.source ∧
        fieldOr? standard.cacheLifetime word? cacheLifetime = some s.cacheLifetime ∧
        fieldOr? standard.fetchOptions Fetch.Options.ofDocument? fetchOptions =
          some s.fetchOptions ∧
        fieldOr? standard.completes flag? completes = some s.completes ∧
        fieldOr? standard.lints flag? lints = some s.lints ∧
        fieldOr? standard.lint Diagnostic.Options.ofDocument? lint = some s.lint ∧
        fieldOr? standard.connection Fetch.Config.ofDocument? connection =
          some s.connection := by
  constructor
  · intro h
    obtain ⟨values, hvalues, h⟩ := Option.bind_eq_some_iff.mp h
    split at h
    · simp only [Option.bind_eq_bind, Option.bind_eq_some_iff] at h
      obtain ⟨_, hsource, _, hlifetime, _, hfetch, _, hcompletes, _, hlints, _, hlint, _,
        hconnection, h⟩ := h
      cases h
      exact ⟨_, _, _, _, _, _, _, hvalues, hsource, hlifetime, hfetch, hcompletes, hlints, hlint,
        hconnection⟩
    · cases h
  · rintro ⟨_, _, _, _, _, _, _, hvalues, hsource, hlifetime, hfetch, hcompletes, hlints, hlint,
      hconnection⟩
    simp [ofDocument?, hvalues, hsource, hlifetime, hfetch, hcompletes, hlints, hlint, hconnection]

end LogQL
