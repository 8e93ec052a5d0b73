import LogQL.Url.Host

/-!
# Addresses

An address has a scheme, mostly a server with a path below it, and perhaps a query and a fragment.
Reading is forgiving, as browsers are: blanks around the address and line breaks inside do not
count, a backslash is as good as a slash where the scheme names a server, any number of slashes
may stand before the server, and characters out of place are percent-encoded. Steps up and down
the path are carried out while reading, so the segments of an address never are `.` or `..`.

An address may be read relative to another one. Drive letters have no special meaning.
-/

namespace LogQL

namespace Url

/-- What follows the server: segments below it, or a text without structure. -/
inductive Path where
  | segments (list : List (List Char))
  | plain (text : List Char)
  deriving DecidableEq, Repr, Inhabited

end Url

/-- An address. -/
structure Url where
  scheme : List Char
  username : List Char
  password : Option (List Char)
  host : Option Url.Host
  /-- The port, unless it is the usual one of the scheme. -/
  port : Option Nat
  path : Url.Path
  query : Option (List Char)
  fragment : Option (List Char)
  deriving DecidableEq, Repr, Inhabited

namespace Url

/-! ## Schemes -/

/-- The usual port of a scheme. -/
def usualPort? (scheme : List Char) : Option Nat :=
  if scheme = "http".toList ∨ scheme = "ws".toList then some 80
  else if scheme = "https".toList ∨ scheme = "wss".toList then some 443
  else if scheme = "ftp".toList then some 21
  else none

/-- An address of this scheme names a file. -/
def isFile (scheme : List Char) : Bool := scheme == "file".toList

/-- An address of this scheme has a server or names a file. -/
def isSpecial (scheme : List Char) : Bool := (usualPort? scheme).isSome || isFile scheme

/-- The scheme at the front, and what follows its colon. -/
def splitScheme? (cs : List Char) : Option (List Char × List Char) :=
  let run := cs.takeWhile fun c => c.isAlphanum || c == '+' || c == '-' || c == '.'
  match run, cs.drop run.length with
  | c :: _, ':' :: rest => if c.isAlpha then some (run.map Char.toLower, rest) else none
  | _, _ => none

/-- Whether a character separates the segments of a path. -/
def isSlash (special : Bool) (c : Char) : Bool := c == '/' || (special && c == '\\')

/-! ## Characters that are encoded -/

/-- Characters that stand for themselves in a fragment. -/
def plainInFragment (c : Char) : Bool := !Host.isControl c && !" \"<>`".toList.contains c

/-- Characters that stand for themselves in a path. -/
def plainInPath (c : Char) : Bool := plainInFragment c && !"#?^{}".toList.contains c

/-- Characters that stand for themselves in a user name. -/
def plainInUser (c : Char) : Bool := plainInPath c && !"/:;=@[\\]|".toList.contains c

/-- Characters that stand for themselves in a query. -/
def plainInQuery (special : Bool) (c : Char) : Bool :=
  !Host.isControl c && !" \"#<>".toList.contains c && !(special && c == '\'')

/-! ## Paths -/

/-- A segment that stays where it is. -/
def isDot (segment : List Char) : Bool :=
  segment.map Char.toLower == ['.'] || segment.map Char.toLower == ['%', '2', 'e']

/-- A segment that goes up. -/
def isDotDot (segment : List Char) : Bool :=
  match segment with
  | '.' :: rest => isDot rest
  | '%' :: '2' :: e :: rest => (e == 'e' || e == 'E') && isDot rest
  | _ => false

/-- Walk down the segments of a path from a place, itself given by its segments from the bottom. A
step at the end leads to the directory, that is to an empty last segment. -/
def walk (place : List (List Char)) : List (List Char) → List (List Char)
  | [] => place.reverse
  | segment :: rest =>
    let stays := isDot segment || isDotDot segment
    let place := if isDotDot segment then place.drop 1 else place
    let place :=
      if !stays then Percent.encodeBut plainInPath segment :: place
      else if rest.isEmpty then [] :: place
      else place
    walk place rest

/-- The path of an address with a server: its parts between slashes. -/
def readPath (special : Bool) (place : List (List Char)) (cs : List Char) : Path :=
  match cs with
  | [] => .segments (if special then walk place [[]] else place.reverse)
  | c :: rest =>
    .segments (walk place (splitAt (isSlash special) (if isSlash special c then rest else cs)))

/-- What stands before the query, the query, and the fragment. -/
def splitTail (special : Bool) (cs : List Char) :
    List Char × Option (List Char) × Option (List Char) :=
  let whole := cs.takeWhile (· != '#')
  let fragment := (cs.drop whole.length).tail
  let path := whole.takeWhile (· != '?')
  let query := (whole.drop path.length).tail
  ( path,
    if path.length < whole.length then some (Percent.encodeBut (plainInQuery special) query)
    else none,
    if whole.length < cs.length then some (Percent.encodeBut plainInFragment fragment) else none )

/-! ## Servers -/

/-- A port, unless it is the usual one or left empty. -/
def readPort (scheme : List Char) (ds : List Char) : Except Fault (Option Nat) :=
  if ds.isEmpty then .ok none
  else
    match Decimal.read? ds with
    | some n =>
      if n > 65535 then .error .invalidPort
      else .ok (if usualPort? scheme = some n then none else some n)
    | none => .error .invalidPort

/-- Where the host ends: at a colon outside brackets. -/
def hostLength (inBrackets : Bool) : List Char → Nat
  | [] => 0
  | c :: cs =>
    if c = ':' ∧ !inBrackets then 0
    else 1 + hostLength (if c = '[' then true else if c = ']' then false else inBrackets) cs

/-- The user name and password before the last at sign. -/
def readUser (user : List Char) : List Char × Option (List Char) :=
  let name := user.takeWhile (· != ':')
  let password := (user.drop name.length).tail
  ( Percent.encodeBut plainInUser name,
    if password.isEmpty then none else some (Percent.encodeBut plainInUser password) )

/-- The server of an address: what stands between two slashes and the path. -/
def readServer (scheme : List Char) (server : List Char) : Except Fault Url := do
  let afterUser := (server.reverse.takeWhile (· != '@')).reverse
  let user := (server.take (server.length - afterUser.length)).dropLast
  let (username, password) := readUser user
  let length := hostLength false afterUser
  let (host, port) := (afterUser.take length, afterUser.drop length)
  let url : Url := ⟨scheme, username, password, none, none, .segments [], none, none⟩
  let anonymous := username.isEmpty && password.isNone
  if (usualPort? scheme).isSome then
    if host.isEmpty then throw .emptyHost
    return { url with host := some (← Host.ofServer host), port := ← readPort scheme port.tail }
  else if host.isEmpty then
    if !port.isEmpty || !anonymous then throw .emptyHost
    return url
  else
    return { url with host := some (← Host.ofOpaque host), port := ← readPort scheme port.tail }

/-- The server and what is below it. -/
def readBelow (scheme : List Char) (cs : List Char) : Except Fault Url := do
  let special := isSpecial scheme
  let server := cs.takeWhile fun c => !(isSlash special c || c == '?' || c == '#')
  let url ← readServer scheme server
  let (path, query, fragment) := splitTail special (cs.drop server.length)
  return { url with path := readPath special [] path, query, fragment }

/-- An address of a file: a host where two slashes come first, and a path. -/
def readFile (cs : List Char) : Except Fault Url := do
  let url : Url := ⟨"file".toList, [], none, none, none, .segments [], none, none⟩
  let isSlash := isSlash true
  match cs with
  | a :: b :: rest =>
    if isSlash a && isSlash b then
      let host := rest.takeWhile fun c => !(isSlash c || c == '?' || c == '#')
      let host? ← if host.isEmpty then pure none else some <$> Host.ofServer host
      let (path, query, fragment) := splitTail true (rest.drop host.length)
      return { url with host := host?, path := readPath true [] path, query, fragment }
    else
      let (path, query, fragment) := splitTail true cs
      return { url with path := readPath true [] path, query, fragment }
  | _ =>
    let (path, query, fragment) := splitTail true cs
    return { url with path := readPath true [] path, query, fragment }

/-- An address without a server. -/
def readPlain (scheme : List Char) (cs : List Char) : Url :=
  let (path, query, fragment) := splitTail false cs
  let url : Url := ⟨scheme, [], none, none, none, .segments [], query, fragment⟩
  match path with
  | '/' :: _ => { url with path := readPath false [] path }
  | _ => { url with path := .plain (Percent.encodeBut (fun c => !Host.isControl c) path) }

/-- What follows the scheme of an address that stands for itself. -/
def readAbsolute (scheme : List Char) (cs : List Char) : Except Fault Url :=
  if isFile scheme then readFile cs
  else if isSpecial scheme then readBelow scheme (cs.dropWhile (isSlash true))
  else
    match cs with
    | '/' :: '/' :: rest => readBelow scheme rest
    | _ => .ok (readPlain scheme cs)

/-! ## Relative addresses -/

/-- An address relative to another one: to its scheme, its server, its path or its query, whichever
comes first in what is given. -/
def readRelative (base : Url) (segments : List (List Char)) (cs : List Char) :
    Except Fault Url := do
  let special := isSpecial base.scheme
  let root := { base with path := .segments [], query := none, fragment := none }
  match cs with
  | [] => return { base with fragment := none }
  | c :: rest =>
    if isSlash special c then
      if rest.head?.any (isSlash special) then
        if isFile base.scheme then readFile cs
        else readBelow base.scheme (if special then rest.dropWhile (isSlash special) else rest.tail)
      else
        let (path, query, fragment) := splitTail special cs
        return { root with path := readPath special [] path, query, fragment }
    else
      let (path, query, fragment) := splitTail special cs
      if path.isEmpty then
        return { base with query := if query.isSome then query else base.query, fragment }
      else
        let path := walk segments.dropLast.reverse (splitAt (isSlash special) path)
        return { root with path := .segments path, query, fragment }

/-- An address as it is meant: without control characters and blanks around it, and without tabs
and line breaks. -/
def clean (cs : List Char) : List Char :=
  let inner := ((cs.dropWhile (· ≤ ' ')).reverse.dropWhile (· ≤ ' ')).reverse
  inner.filter fun c => c != '\t' && c != '\n' && c != '\r'

/-- Read an address, relative to another one if there is one. -/
def read (base : Option Url) (text : List Char) : Except Fault Url :=
  let cs := clean text
  match splitScheme? cs, base with
  | some (scheme, rest), some b =>
    match b.path with
    | .segments segments =>
      if scheme = b.scheme ∧ isSpecial scheme ∧ (rest.takeWhile (isSlash true)).length < 2 then
        readRelative b segments rest
      else readAbsolute scheme rest
    | .plain _ => readAbsolute scheme rest
  | some (scheme, rest), none => readAbsolute scheme rest
  | none, none => .error .relativeWithoutBase
  | none, some b =>
    match b.path with
    | .segments segments => readRelative b segments cs
    | .plain _ =>
      match cs with
      | '#' :: rest => .ok { b with fragment := some (Percent.encodeBut plainInFragment rest) }
      | _ => .error .relativeToOpaque

/-! ## Writing -/

/-- The path as it is written. -/
def Path.write : Path → List Char
  | .segments list => list.flatMap ('/' :: ·)
  | .plain text => text

/-- The path and the query as they are written. -/
def target (u : Url) : List Char :=
  u.path.write ++ (match u.query with
    | some q => '?' :: q
    | none => [])

/-- A number below 2 ^ 16 to the base 16. -/
def hexText (n : Nat) : List Char := (Nat.toDigits 16 n)

/-- A host as it is written. -/
def Host.write : Host → List Char
  | .name labels => labels
  | .ipv4 n =>
    let bytes := [n / 0x1000000, n / 0x10000 % 256, n / 256 % 256, n % 256]
    List.intercalate ['.'] (bytes.map Decimal.digits)
  | .ipv6 pieces => '[' :: List.intercalate [':'] (pieces.map hexText) ++ [']']

/-- The server as it is written, without a user. -/
def server (u : Url) : List Char :=
  (match u.host with
    | some h => h.write
    | none => []) ++
  (match u.port with
    | some p => ':' :: Decimal.digits p
    | none => [])

/-- The address without its user and its fragment. -/
def location (u : Url) : List Char :=
  u.scheme ++ ':' :: (if u.host.isSome then '/' :: '/' :: u.server else []) ++ u.target

end Url

end LogQL
