import LogQL.Fetch.Header
import LogQL.Url.Parser

/-!
# Making a request

A client is made from a configuration, once, and then fetches text by its address. Before anything
is sent, the address, the headers and the token are checked, in this order. What happens on the
network is up to a `Transport`, a step that takes a request to an answer or a fault; redirects are
followed here.

Nothing depends on what the state of a transport is, so one that keeps a record of its requests
shows what a client sends.
-/

namespace LogQL.Fetch

/-- A request for the text at an address. -/
structure Call where
  url : Url
  /-- The headers by lower-case names; a name may come several times. -/
  headers : List (String × String)
  /-- The request goes to this server, rather than to that of the address. -/
  proxy : Option Url
  deriving DecidableEq, Repr, Inhabited

/-- The answer to a request. -/
structure Answer where
  status : Status
  headers : List (String × String)
  body : String
  deriving DecidableEq, Repr, Inhabited

/-- How requests get their answers. -/
abbrev Transport (σ : Type) := Call → σ → Except SendFault Answer × σ

/-- A network without connection. -/
def Transport.unreachable {σ : Type} : Transport σ := fun _ s => (.error .unreachable, s)

/-- What fetches the text at an address with some options. -/
abbrev Fetcher (σ : Type) := String → Options → σ → Except Failure String × σ

/-! ## Base 64 -/

/-- The digit for a number below 64. -/
def base64Digit (n : Nat) : Char :=
  Char.ofNat
    (if n < 26 then 65 + n else if n < 52 then 71 + n else if n < 62 then n - 4
      else if n = 62 then 43 else 47)

/-- Bytes to the base 64, three by three. -/
def base64 : List Nat → List Char
  | [] => []
  | [a] => [base64Digit (a / 4), base64Digit (a % 4 * 16), '=', '=']
  | [a, b] =>
    [base64Digit (a / 4), base64Digit (a % 4 * 16 + b / 16), base64Digit (b % 16 * 4), '=']
  | a :: b :: c :: rest =>
    base64Digit (a / 4) :: base64Digit (a % 4 * 16 + b / 16) :: base64Digit (b % 16 * 4 + c / 64) ::
      base64Digit (c % 64) :: base64 rest

/-- The header value for a user name and password, given by their bytes. -/
def basicValue (username password : List UInt8) : String :=
  "Basic " ++ String.ofList (base64 ((username ++ ':'.toUInt8 :: password).map UInt8.toNat))

/-- The bytes of a text. -/
def bytesOf (s : String) : List UInt8 := s.toList.flatMap Url.Percent.bytes

/-! ## Clients -/

/-- A client that can be used. -/
structure Client where
  config : Config
  proxy : Option Url
  deriving DecidableEq, Inhabited

namespace Client

/-- The server of a proxy. A text that is no address of a server may be one without its scheme. -/
def readProxy (text : String) : Except Failure Url := do
  let retry (reason : String) : Except Failure Url :=
    match Url.read none ("http://".toList ++ text.toList) with
    | .ok u => if u.host.isSome then .ok u else .error (.invalidProxy reason)
    | .error _ => .error (.invalidProxy reason)
  let url ←
    match Url.read none text.toList with
    | .ok u => if u.host.isSome then pure u else retry SendFault.unsupportedAddress.message
    | .error .relativeWithoutBase => retry Url.Fault.relativeWithoutBase.message
    | .error fault => throw (.invalidProxy fault.message)
  if url.scheme = "http".toList ∨ url.scheme = "https".toList then return url
  else throw (.invalidProxy "unknown proxy scheme")

/-- Make a client. -/
def make (config : Config) : Except Failure Client := do
  let proxy ← config.proxy.mapM readProxy
  if Header.isValue config.userAgent then return ⟨config, proxy⟩
  else throw (.buildError "failed to parse header value")

/-- The headers for the user, if any, of an address and of the options. -/
def authorization (url : Url) (o : Options) (map : Dict String) : List (String × String) :=
  let ofAddress :=
    if (url.username.isEmpty && url.password.isNone) || map.contains "authorization" then []
    else [basicValue (Url.Percent.decode url.username)
      (Url.Percent.decode (url.password.getD []))]
  let ofToken := (o.bearerToken.map ("Bearer " ++ ·)).toList
  let ofCredentials := (o.credentials.map fun c =>
    basicValue (bytesOf c.username) (bytesOf (c.password.getD ""))).toList
  (ofAddress ++ ofToken ++ ofCredentials).map ("authorization", ·)

/-- The request for the text at an address, if it can be made. -/
def prepare (c : Client) (address : String) (o : Options) : Except Failure Call := do
  let url ←
    match Url.read none address.toList with
    | .ok u => pure u
    | .error fault => throw (.invalidUrl fault.message)
  let map ← Header.ofOptions o
  if !o.bearerToken.all Header.isValue then throw (.requestFailed .badToken)
  if !(url.scheme = "http".toList ∨ url.scheme = "https".toList) then
    throw (.requestFailed .unsupportedAddress)
  let standard (name value : String) : List (String × String) :=
    if map.contains name then [] else [(name, value)]
  return {
    url := { url with username := [], password := none }
    headers := standard "accept" "*/*" ++ standard "user-agent" c.config.userAgent ++ map.entries
      ++ authorization url o map
    proxy := c.proxy }

/-- The header of a name in an answer. -/
def headerOf (a : Answer) (name : String) : Option String :=
  (a.headers.find? (Header.fold ·.1 = name)).map Prod.snd

/-- Where an answer sends the client on to. -/
def redirect? (call : Call) (a : Answer) : Option Url :=
  if [301, 302, 303, 307, 308].contains a.status then do
    let text ← headerOf a "location"
    (Url.read (some call.url) text.toList).toOption
  else none

/-- Headers that only the server that they were meant for gets to see. -/
def isSensitive (name : String) : Bool :=
  ["authorization", "cookie", "cookie2", "proxy-authorization", "www-authenticate"].contains name

/-- The request that follows a redirect. It tells where the client comes from, unless it leaves a
secure server. -/
def follow (call : Call) (url : Url) : Call :=
  let sameServer := url.server == call.url.server
  let kept := call.headers.filter fun h => h.1 != "referer" && (sameServer || !isSensitive h.1)
  let leavesSecure := call.url.scheme == "https".toList && url.scheme == "http".toList
  let referer := if leavesSecure then [] else [("referer", String.ofList call.url.location)]
  { call with url, headers := kept ++ referer }

/-- The outcome of an answer that is not followed any further. -/
def settle (a : Answer) : Except Failure String :=
  if Status.isSuccess a.status then .ok a.body else .error (.status a.status a.body)

/-- Send a request and follow redirects, of which the last one of `left` is one too many. -/
def send {σ : Type} (transport : Transport σ) : (left : Nat) → Call → σ →
    Except Failure String × σ
  | 0, call, s =>
    match transport call s with
    | (.error fault, s) => (.error (.requestFailed fault), s)
    | (.ok a, s) => (settle a, s)
  | left + 1, call, s =>
    match transport call s with
    | (.error fault, s) => (.error (.requestFailed fault), s)
    | (.ok a, s) =>
      match redirect? call a with
      | none => (settle a, s)
      | some url =>
        if left = 0 then (.error (.requestFailed .tooManyRedirects), s)
        else send transport left (follow call url) s

/-- Fetch the text at an address. -/
def fetch {σ : Type} (c : Client) (transport : Transport σ) : Fetcher σ := fun address o s =>
  match c.prepare address o with
  | .error failure => (.error failure, s)
  | .ok call => send transport c.config.maxRedirects.toNat call s

end Client

end LogQL.Fetch
