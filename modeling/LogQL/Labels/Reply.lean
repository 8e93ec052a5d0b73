import LogQL.Document
import LogQL.Fetch.Failure
import LogQL.Json.Reader

/-!
# Replies of a label source

A reply is a record of a status and a list of strings. The status may be left out, and anything but
`success` means that there is no answer.
-/

namespace LogQL.Labels

/-- Why a question to a source has no answer. -/
inductive Failure where
  | fetch (failure : Fetch.Failure)
  /-- The reply is no record of a list of strings. -/
  | malformed
  /-- The source says that something went wrong. -/
  | status (status : String)
  | notConfigured
  deriving DecidableEq, Repr, Inhabited

/-- The text of a failure. -/
def Failure.message : Failure → String
  | .fetch cause => "request failed: " ++ cause.message
  | .malformed => "malformed response body"
  | .status word => "endpoint reported status '" ++ word ++ "'"
  | .notConfigured => "no data source configured"

open Document Json in
/-- The status and the strings of a reply. -/
def reply? (v : Json) : Option (Option String × List String) := do
  let [status, data] ← Json.fields? ["status", "data"] v | none
  let status ← fieldOr? none (optional? Json.text?) status
  let items ← (← data).items?
  return (status, ← items.mapM Json.text?)

/-- The strings that a reply gives. -/
def readReply (body : String) : Except Failure (List String) :=
  match (Json.read? body).bind reply? with
  | none => .error .malformed
  | some (none, data) => .ok data
  | some (some status, data) => if status = "success" then .ok data else .error (.status status)

end LogQL.Labels
