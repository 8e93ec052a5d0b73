import LogQL.Fetch.Failure
import LogQL.Settings.Basic
import LogQL.Url.Parser

/-!
# Why settings cannot be used

Settings may be missing, written in a notation that nobody reads, malformed, or name a source that
cannot be asked. `validate` is the last of these checks; it applies to settings wherever they come
from.
-/

namespace LogQL.Settings

/-- Why there are no settings to work with. -/
inductive Failure where
  /-- The file is there, but its text cannot be had. -/
  | unreadable (reason : String)
  /-- The text holds no settings. -/
  | malformed (reason : String)
  /-- The settings contradict themselves. -/
  | invalid (reason : String)
  | notFound (path : String)
  /-- The name of the file says nothing about its notation. -/
  | unknownFormat (path : String)
  /-- No client can be made of the settings. -/
  | client (cause : Fetch.Failure)
  deriving DecidableEq, Repr, Inhabited

/-- The text of a failure. -/
def Failure.message : Failure → String
  | .unreadable reason => "IO error: " ++ reason
  | .malformed reason => "Parse error: " ++ reason
  | .invalid reason => "Validation error: " ++ reason
  | .notFound path => "Config file not found: " ++ path
  | .unknownFormat path => "Unsupported configuration format: " ++ path
  | .client cause => "HTTP client error: " ++ cause.message

/-- Why an address cannot be that of a source, if so. -/
def sourceFault? (source : String) : Option String :=
  match Url.read none source.toList with
  | .error fault => some ("source '" ++ source ++ "' is not a valid URL: " ++ fault.message)
  | .ok url =>
    if url.scheme = "http".toList ∨ url.scheme = "https".toList then none
    else some ("source '" ++ source ++ "' must use http or https")

/-- The settings, unless they name a source that cannot be asked. -/
def validate (s : Settings) : Except Failure Settings :=
  match s.source.bind sourceFault? with
  | some reason => .error (.invalid reason)
  | none => .ok s

end LogQL.Settings
