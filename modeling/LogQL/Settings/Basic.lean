import LogQL.Cache.Lifetime
import LogQL.Diagnostic.Basic
import LogQL.Document
import LogQL.Fetch.Options

/-!
# Settings

Everything that a user can set for an editor: where labels come from, how they are fetched and for
how long they are kept, and which of the aids are on. `ofDocument?` reads settings from any
notation. Fields that a document leaves out have their standard values, field by field down to the
leaves; only the connection to the source has other standard values when a document speaks of it at
all than when it does not, `Config.standard` instead of `Config.interactive`.
-/

namespace LogQL

/-- What a user can set. -/
structure Settings where
  /-- The base address of the label source. -/
  source : Option String
  cacheLifetime : Millis
  fetchOptions : Fetch.Options
  completes : Bool
  lints : Bool
  lint : Diagnostic.Options
  connection : Fetch.Config
  deriving DecidableEq, Inhabited

namespace Settings

/-- The standard settings. -/
def standard : Settings where
  source := none
  cacheLifetime := Lifetime.default.millis
  fetchOptions := .none
  completes := true
  lints := true
  lint := .all
  connection := .interactive

end Settings

/-! ## Reading from a document -/

section

open Document

variable {ν : Type} [Document ν]

/-- Read which rules are on. -/
def Diagnostic.Options.ofDocument? (v : ν) : Option Diagnostic.Options := do
  let [quotes, brackets, parseErrors, emptySelector] ←
    fields? ["quotes", "brackets", "parse_errors", "empty_selector"] v | none
  return {
    quotes := ← fieldOr? true flag? quotes
    brackets := ← fieldOr? true flag? brackets
    parseErrors := ← fieldOr? true flag? parseErrors
    emptySelector := ← fieldOr? true flag? emptySelector }

/-- Read how a client connects. -/
def Fetch.Config.ofDocument? (v : ν) : Option Fetch.Config := do
  let [timeout, connectTimeout, proxy, userAgent, maxRedirects, poolEnabled, poolIdleTimeout] ←
    fields? ["timeout_ms", "connect_timeout_ms", "proxy", "user_agent", "max_redirects",
      "pool_enabled", "pool_idle_timeout_ms"] v | none
  let std := Config.standard
  return {
    timeout := ← fieldOr? std.timeout word? timeout
    connectTimeout := ← fieldOr? std.connectTimeout word? connectTimeout
    proxy := ← fieldOr? std.proxy (optional? text?) proxy
    userAgent := ← fieldOr? std.userAgent text? userAgent
    maxRedirects := ← fieldOr? std.maxRedirects word? maxRedirects
    poolEnabled := ← fieldOr? std.poolEnabled flag? poolEnabled
    poolIdleTimeout := ← fieldOr? std.poolIdleTimeout word? poolIdleTimeout }

/-- Read a user name and password. -/
def Fetch.Credentials.ofDocument? (v : ν) : Option Fetch.Credentials := do
  let [username, password] ← fields? ["username", "password"] v | none
  return {
    username := ← field? text? username
    password := ← fieldOr? none (optional? text?) password }

/-- Read what is added to requests. -/
def Fetch.Options.ofDocument? (v : ν) : Option Fetch.Options := do
  let [headers, bearerToken, credentials, tenant, timeout] ←
    fields? ["headers", "bearer_token", "basic_auth", "tenant_id", "timeout_ms"] v | Option.none
  return {
    headers := ← fieldOr? .empty texts? headers
    bearerToken := ← fieldOr? Option.none (optional? text?) bearerToken
    credentials := ← fieldOr? Option.none (optional? Credentials.ofDocument?) credentials
    tenant := ← fieldOr? Option.none (optional? text?) tenant
    timeout := ← fieldOr? Option.none (optional? word?) timeout }

/-- Read settings. -/
def Settings.ofDocument? (v : ν) : Option Settings := do
  let [source, cacheLifetime, fetchOptions, completes, lints, lint, connection] ←
    fields? ["source", "cache_duration_ms", "fetch_options", "enable_completion",
      "linter_enabled", "lint", "http"] v | none
  let std := Settings.standard
  return {
    source := ← fieldOr? std.source (optional? text?) source
    cacheLifetime := ← fieldOr? std.cacheLifetime word? cacheLifetime
    fetchOptions := ← fieldOr? std.fetchOptions Fetch.Options.ofDocument? fetchOptions
    completes := ← fieldOr? std.completes flag? completes
    lints := ← fieldOr? std.lints flag? lints
    lint := ← fieldOr? std.lint Diagnostic.Options.ofDocument? lint
    connection := ← fieldOr? std.connection Fetch.Config.ofDocument? connection }

end

end LogQL
