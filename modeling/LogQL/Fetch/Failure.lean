import LogQL.Fetch.Options
import LogQL.Number.Decimal

/-!
# Why a fetch fails

A fetch can fail before anything is sent, while sending, or by the status of the answer. Every
cause has its text; that of a failed transmission says no more than what went wrong.
-/

namespace LogQL.Fetch

/-- A status code of HTTP. -/
abbrev Status := Nat

namespace Status

/-- The phrases of the registered codes. -/
def phrases : List (Status × String) :=
  [ (100, "Continue"), (101, "Switching Protocols"), (102, "Processing"), (200, "OK"),
    (201, "Created"), (202, "Accepted"), (203, "Non Authoritative Information"),
    (204, "No Content"), (205, "Reset Content"), (206, "Partial Content"), (207, "Multi-Status"),
    (208, "Already Reported"), (226, "IM Used"), (300, "Multiple Choices"),
    (301, "Moved Permanently"), (302, "Found"), (303, "See Other"), (304, "Not Modified"),
    (305, "Use Proxy"), (307, "Temporary Redirect"), (308, "Permanent Redirect"),
    (400, "Bad Request"), (401, "Unauthorized"), (402, "Payment Required"), (403, "Forbidden"),
    (404, "Not Found"), (405, "Method Not Allowed"), (406, "Not Acceptable"),
    (407, "Proxy Authentication Required"), (408, "Request Timeout"), (409, "Conflict"),
    (410, "Gone"), (411, "Length Required"), (412, "Precondition Failed"),
    (413, "Payload Too Large"), (414, "URI Too Long"), (415, "Unsupported Media Type"),
    (416, "Range Not Satisfiable"), (417, "Expectation Failed"), (418, "I'm a teapot"),
    (421, "Misdirected Request"), (422, "Unprocessable Entity"), (423, "Locked"),
    (424, "Failed Dependency"), (426, "Upgrade Required"), (428, "Precondition Required"),
    (429, "Too Many Requests"), (431, "Request Header Fields Too Large"),
    (451, "Unavailable For Legal Reasons"), (500, "Internal Server Error"),
    (501, "Not Implemented"), (502, "Bad Gateway"), (503, "Service Unavailable"),
    (504, "Gateway Timeout"), (505, "HTTP Version Not Supported"),
    (506, "Variant Also Negotiates"), (507, "Insufficient Storage"), (508, "Loop Detected"),
    (510, "Not Extended"), (511, "Network Authentication Required") ]

/-- A code and its phrase. -/
def text (s : Status) : String :=
  Decimal.text s ++ " " ++ (phrases.lookup s).getD "<unknown status code>"

/-- The answer is what was asked for. -/
def isSuccess (s : Status) : Bool := 200 ≤ s && s < 300

end Status

/-- Why a request got no answer. -/
inductive SendFault where
  /-- No connection came about. -/
  | unreachable
  /-- The time ran out. -/
  | timedOut
  /-- The address names no server that is asked by HTTP. -/
  | unsupportedAddress
  /-- The bearer token cannot stand in a header. -/
  | badToken
  | tooManyRedirects
  deriving DecidableEq, Repr, Inhabited

/-- The text of a fault. -/
def SendFault.message : SendFault → String
  | .unreachable => "connection failed"
  | .timedOut => "operation timed out"
  | .unsupportedAddress => "URL scheme is not allowed"
  | .badToken => "failed to parse header value"
  | .tooManyRedirects => "too many redirects"

/-- Why a fetch failed. -/
inductive Failure where
  | requestFailed (fault : SendFault)
  | invalidUrl (reason : String)
  | invalidProxy (reason : String)
  | invalidHeader (name reason : String)
  | status (code : Status) (body : String)
  | buildError (reason : String)
  deriving DecidableEq, Repr, Inhabited

namespace Failure

/-- The text of a failure. -/
def message : Failure → String
  | .requestFailed fault => "Network request failed: " ++ fault.message
  | .invalidUrl reason => "Invalid URL: " ++ reason
  | .invalidProxy reason => "Invalid proxy configuration: " ++ reason
  | .invalidHeader name reason => "Invalid header '" ++ name ++ "': " ++ reason
  | .status code body => "HTTP " ++ Status.text code ++ ": " ++ body
  | .buildError reason => "Failed to build HTTP client: " ++ reason

/-- The status of the answer, if there was one. -/
def status? : Failure → Option Status
  | .status code _ => some code
  | _ => none

/-- Whether the time ran out. -/
def isTimeout (f : Failure) : Bool := f == .requestFailed .timedOut

end Failure

end LogQL.Fetch
