import LogQL.Json.Reader
import LogQL.Path
import LogQL.Settings.Failure
import LogQL.Text.Utf8
import LogQL.Yaml.Document
import LogQL.Yaml.Reader

/-!
# Settings in a file

The ending of a file's name says in which notation its settings are written. A file that cannot be
read as text, has another ending, or is not there has no settings.
-/

namespace LogQL

/-- What a path leads to. -/
inductive Found where
  | file (bytes : List UInt8)
  /-- Something that has no text, such as a folder. -/
  | other
  | nothing
  deriving DecidableEq, Repr, Inhabited

namespace Settings

/-- The notations of settings. -/
inductive Format where
  | yaml
  | json
  deriving DecidableEq, Repr, Inhabited

/-- The notation that the name of a file tells. -/
def Format.ofPath? (path : String) : Option Format :=
  match Path.extension? path with
  | some "yaml" | some "yml" => some .yaml
  | some "json" => some .json
  | _ => none

/-- The settings of a text. -/
def read (f : Format) (text : String) : Except Failure Settings :=
  let settings : Option Settings :=
    match f with
    | .json => (Json.read? text).bind ofDocument?
    | .yaml => (Yaml.read? text).bind ofDocument?
  match settings with
  | some s => s.validate
  | none => .error (.malformed "the text holds no settings")

/-- The settings of a file, given what its path leads to. -/
def ofFile (path : String) (found : Found) : Except Failure Settings :=
  match Format.ofPath? path with
  | none => .error (.unknownFormat path)
  | some f =>
    match found with
    | .nothing => .error (.notFound path)
    | .other => .error (.unreadable "not a file")
    | .file bytes =>
      match Text.Utf8.read? bytes with
      | none => .error (.unreadable "the bytes are no text")
      | some text => read f text

end Settings

end LogQL
