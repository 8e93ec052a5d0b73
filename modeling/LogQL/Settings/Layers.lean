import LogQL.Json.Reader
import LogQL.Settings.File
import LogQL.Settings.Key
import LogQL.Yaml.Reader

/-!
# Settings in layers

Settings may be written in a file and in the variables of the environment, and those in variables
are put over those in the file, key by key. Letter case does not count in names.

A variable belongs to the settings if its name begins with `LOGQL_`. Two underscores after that
are a dot. Its text is taken for a truth value or a number if it looks like one, and for a text
otherwise, which `Loose` values undo where a text is asked for, as far as they can.
-/

namespace LogQL.Settings

/-- What the names of variables begin with, in lower case. -/
def variableMark : String := "logql_"

/-- The value that the text of a variable stands for. -/
def ofVariable (s : String) : Loose :=
  let word := Text.lower s
  if word = "true" then .flag true
  else if word = "false" then .flag false
  else
    match (Decimal.readSigned? s.toList).filter Loose.fits with
    | some n => .whole n
    | none =>
      match Double.read? s.toList with
      | some x => .real x
      | none => .text s

/-- The text with a dot for every two underscores, from left to right. -/
def dotted : List Char → List Char
  | '_' :: '_' :: cs => '.' :: dotted cs
  | c :: cs => c :: dotted cs
  | [] => []

/-- The key that the name of a variable stands for, if it belongs to the settings. -/
def keyOfVariable? (name : String) : Option Key :=
  let name := Text.lower name
  if name.startsWith variableMark then
    some (.ofText (String.ofList (dotted (name.toList.drop variableMark.length))))
  else none

/-- Put the variables over some values. -/
def withVariables (root : Loose) (env : List (String × String)) : Loose :=
  env.foldl (fun root (name, s) =>
    match keyOfVariable? name with
    | some key => root.set key (ofVariable s)
    | none => root) root

/-- How deep the arrays and objects of a file may be nested. -/
def nestingLimit : Nat := 127

/-- The values in the text of a file, which has to hold a record. -/
def looseOf? (f : Format) (text : String) : Option Loose := do
  let v ←
    match f with
    | .json => (Json.read? text).bind (Loose.ofJson? nestingLimit)
    | .yaml => do
      match ← Yaml.readAll? text with
      | [] => some (.table [])
      | [v] => Loose.ofYaml? v
      | _ => none
  match v with
  | .table ms => some (ms.foldl (fun root m => root.set (.ofText m.1) m.2) (.table []))
  | _ => none

/-- The text of a file. A mark of the byte order at its front does not count. -/
def textOf (bytes : List UInt8) : String :=
  Text.Utf8.readLenient (if bytes.take 3 = [0xEF, 0xBB, 0xBF] then bytes.drop 3 else bytes)

/-- The settings of values that were put together. -/
def ofLoose (root : Option Loose) : Except Failure Settings :=
  match root.bind ofDocument? with
  | some s => s.validate
  | none => .error (.malformed "the values are no settings")

/-- The settings of a file, or of none, and of variables. -/
def ofLayers (file : Option (Format × List UInt8)) (env : List (String × String)) :
    Except Failure Settings :=
  let base :=
    match file with
    | some (f, bytes) => looseOf? f (textOf bytes)
    | none => some (.table [])
  ofLoose (base.map (withVariables · env))

/-- The names under which a file is looked for where a path leads to none: with each ending that
tells a notation. -/
def candidates (path : String) : List (Format × String) :=
  match Path.fileName? path with
  | none => []
  | some _ =>
    let stem := String.ofList (path.toList.reverse.dropWhile (· == '/')).reverse
    [(.yaml, stem ++ ".yaml"), (.yaml, stem ++ ".yml"), (.json, stem ++ ".json")]

/-- The first of some candidates that is a file. -/
def firstFile? {m : Type → Type} [Monad m] (look : String → m Found) :
    List (Format × String) → m (Option (Format × List UInt8))
  | [] => pure none
  | (f, path) :: rest => do
    match ← look path with
    | .file bytes => pure (some (f, bytes))
    | _ => firstFile? look rest

/-- The file that a path means, and its notation. The path need not tell its ending. -/
def locate? {m : Type → Type} [Monad m] (look : String → m Found) (path : String) :
    m (Option (Format × List UInt8)) := do
  match ← look path with
  | .file bytes => pure ((Format.ofPath? path).map (·, bytes))
  | _ => firstFile? look (candidates path)

/-- Gather settings from the file at a path, if one is given, and from variables. -/
def gather {m : Type → Type} [Monad m] (look : String → m Found) (path : Option String)
    (env : List (String × String)) : m (Except Failure Settings) := do
  match path with
  | none => pure (ofLayers none env)
  | some path =>
    match ← locate? look path with
    | some file => pure (ofLayers (some file) env)
    | none => pure (.error (.malformed "there is no such file"))

end LogQL.Settings
