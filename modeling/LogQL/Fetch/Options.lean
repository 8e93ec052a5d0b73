import LogQL.Dict
import LogQL.Time

/-!
# What a fetch is made with

`Fetch.Config` belongs to a client and holds for all its requests; `Fetch.Options` are added to
each request. Both are filled field by field from a standard value.
-/

namespace LogQL.Fetch

/-- How a client connects. -/
structure Config where
  /-- The time that a request may take. -/
  timeout : Millis
  connectTimeout : Millis
  proxy : Option String
  userAgent : String
  /-- The number of redirects that are one too many; zero turns redirects off. -/
  maxRedirects : UInt64
  /-- Whether connections are kept for further requests. -/
  poolEnabled : Bool
  poolIdleTimeout : Millis
  deriving DecidableEq, Repr, Inhabited

namespace Config

/-- The standard configuration. -/
def standard : Config where
  timeout := 30000
  connectTimeout := 10000
  proxy := none
  userAgent := "logql-assist/0.1.0"
  maxRedirects := 10
  poolEnabled := true
  poolIdleTimeout := 90000

/-- The configuration for requests that a user waits for. -/
def interactive : Config := { standard with timeout := 5000, connectTimeout := 2000 }

end Config

/-- A user name, perhaps with a password. -/
structure Credentials where
  username : String
  password : Option String
  deriving DecidableEq, Repr, Inhabited

/-- What is added to a request. -/
structure Options where
  headers : Dict String
  bearerToken : Option String
  credentials : Option Credentials
  /-- The tenant that the request is made for. -/
  tenant : Option String
  timeout : Option Millis
  deriving DecidableEq, Inhabited

namespace Options

/-- Nothing is added. -/
def none : Options := ⟨.empty, Option.none, Option.none, Option.none, Option.none⟩

/-- The header that carries the tenant. -/
def tenantHeader : String := "X-Scope-OrgID"

/-- Add a header, over one with exactly this name. -/
def withHeader (o : Options) (name value : String) : Options :=
  { o with headers := o.headers.insert name value }

end Options

end LogQL.Fetch
