import LogQL.Number.Double
import LogQL.Text.Alphanumeric
import LogQL.Text.Words
import LogQL.Time

/-!
# Which messages are logged

A filter is a list of directives with commas between them. A directive is a level, or says which
messages it is about, perhaps with an equals sign and a level: those of a part of the program, by
its name, and in brackets those below a step of the program with some name, or with some field.

Of two directives about the same messages the last one counts. A filter is shown with the most
particular directives first, those that need no look at the steps before the others, and with its
levels in lower case. One that cannot be read is replaced by warnings.
-/

namespace LogQL.Command

/-- How grave a message has to be. -/
inductive LogLevel where
  | off
  | error
  | warn
  | info
  | debug
  | trace
  deriving DecidableEq, Repr, Inhabited

namespace LogLevel

/-- The name of a level. -/
def name : LogLevel → String
  | .off => "off"
  | .error => "error"
  | .warn => "warn"
  | .info => "info"
  | .debug => "debug"
  | .trace => "trace"

/-- The levels, from the one that lets nothing through. -/
def all : List LogLevel := [.off, .error, .warn, .info, .debug, .trace]

/-- The level of a name in any case, or of a number. -/
def ofText? (cs : List Char) : Option LogLevel :=
  match Decimal.readUnsigned? cs with
  | some n => all[n]?
  | none => all.find? fun l => l.name.toList == cs.map Char.toLower

end LogLevel

/-- A field of a step, and perhaps the value it has to have. -/
structure LogField where
  name : String
  value : Option String
  deriving DecidableEq, Repr, Inhabited

namespace LogField

/-- The value of a field as it is shown: a number in its plainest form. -/
def valueOf (cs : List Char) : String :=
  let fits (n : Int) : Bool := -0x8000000000000000 ≤ n && n ≤ wordMax
  match (Decimal.readSigned? cs).filter fits with
  | some n => Decimal.signedText n
  | none => ((Double.read? cs).map Double.shortest).getD (String.ofList cs)

/-- Read a field. Nothing from a second equals sign on counts. -/
def ofText (cs : List Char) : LogField :=
  let name := cs.takeWhile (· != '=')
  { name := String.ofList name
    value :=
      match cs.drop name.length with
      | [] => none
      | _ :: value => some (valueOf (value.takeWhile (· != '='))) }

/-- How a field is shown. -/
def text (f : LogField) : String :=
  match f.value with
  | some value => f.name ++ "=" ++ value
  | none => f.name

/-- The order of fields: one with a value is the greater one. -/
def order (f g : LogField) : Ordering :=
  (compare f.value.isSome g.value.isSome).then
    ((compare f.name g.name).then (compare f.value g.value))

end LogField

/-- Which messages are logged, of those that it is about. -/
structure LogDirective where
  /-- The part of the program. -/
  target : Option String
  /-- The name of a step. -/
  span : Option String
  field : Option LogField
  level : LogLevel
  deriving DecidableEq, Repr, Inhabited

namespace LogDirective

/-- A character that a directive can begin with, other than a bracket. -/
def isFirst (c : Char) : Bool := c == '-' || c == ':' || c == '_' || Text.isAlphanumeric c

/-- The level behind an equals sign, which is the lowest one if it is left out. -/
def levelOf? (cs : List Char) : Option LogLevel :=
  if cs.isEmpty then some .trace else LogLevel.ofText? cs

/-- What may follow a bracket. -/
def readLevel? : List Char → Option LogLevel
  | [] => some .trace
  | '=' :: level => levelOf? level
  | _ => none

/-- Read what stands in and behind a bracket. -/
def readSpan? (target : Option String) (cs : List Char) : Option LogDirective :=
  let name := cs.takeWhile fun c => c != ']' && c != '\x7b'
  match cs.drop name.length with
  | ']' :: rest => do return ⟨target, some (String.ofList name), none, ← readLevel? rest⟩
  | '\x7b' :: rest =>
    let field := rest.takeWhile (· != '\x7d')
    match rest.drop field.length with
    | _ :: ']' :: behind =>
      if field.isEmpty then none
      else do
        let span := if name.isEmpty then none else some (String.ofList name)
        return ⟨target, span, some (.ofText field), ← readLevel? behind⟩
    | _ => none
  | _ => none

/-- Read a directive. What is no level is a part of the program, which is logged in full. -/
def ofText? (cs : List Char) : Option LogDirective :=
  match cs with
  | '[' :: rest => readSpan? none rest
  | c :: _ =>
    let target := cs.takeWhile fun c => c != '=' && c != '['
    let name := String.ofList target
    if !isFirst c then none
    else
      match cs.drop target.length with
      | '[' :: rest => readSpan? (some name) rest
      | _ :: level => do return ⟨some name, none, none, ← levelOf? level⟩
      | [] =>
        match LogLevel.ofText? cs with
        | some level => some ⟨none, none, none, level⟩
        | none => some ⟨some name, none, none, .trace⟩
  | [] => none

/-- How a directive is shown. -/
def text (d : LogDirective) : String :=
  let field := (d.field.map fun f => "\x7b" ++ f.text ++ "\x7d").getD ""
  let inside := d.span.getD "" ++ field
  let about := d.target.getD "" ++
    if d.span.isSome || d.field.isSome then "[" ++ inside ++ "]" else ""
  if about.isEmpty then d.level.name else about ++ "=" ++ d.level.name

/-- Whether steps matter to a directive. -/
def isDynamic (d : LogDirective) : Bool := d.span.isSome || d.field.isSome

/-- Whether a directive can do without a look at steps. -/
def isStatic (d : LogDirective) : Bool :=
  d.span.isNone && d.field.all fun f => f.value.isNone

/-- The order of what two optional fields say. -/
def orderFields : Option LogField → Option LogField → Ordering
  | some f, some g => f.order g
  | f, g => compare f.isSome g.isSome

/-- The order of directives by how much they ask for: first by the length of a part's name. -/
def order (d e : LogDirective) : Ordering :=
  (compare (d.target.map String.utf8ByteSize) (e.target.map String.utf8ByteSize)).then <|
  (compare d.span.isSome e.span.isSome).then <|
  (compare d.field.isSome e.field.isSome).then <|
  (compare d.target e.target).then <|
  (compare d.span e.span).then <| orderFields d.field e.field

/-- Put a directive into its place among others, over one about the same messages. -/
def place (d : LogDirective) : List LogDirective → List LogDirective
  | [] => [d]
  | e :: rest =>
    match d.order e with
    | .eq => d :: rest
    | .gt => d :: e :: rest
    | .lt => e :: place d rest

/-- The directives as they count: the most particular first. -/
def arrange (ds : List LogDirective) : List LogDirective :=
  ds.foldl (fun placed d => d.place placed) []

end LogDirective

/-- What is logged if nothing is said about it. -/
def standardLogFilter : String := "warn"

/-- The filter of some directives, as it is shown. -/
def filterText (ds : List LogDirective) : String :=
  let (dynamics, statics) := ds.partition LogDirective.isDynamic
  let statics := statics ++ dynamics.filter LogDirective.isStatic
  ",".intercalate ((LogDirective.arrange statics ++ LogDirective.arrange dynamics).map
    LogDirective.text)

/-- The filter that a text asks for, as it is shown. A text without directives asks for errors. -/
def logFilter (level : Option String) : String :=
  match level with
  | none => standardLogFilter
  | some s =>
    if s.isEmpty then LogLevel.error.name
    else
      match (s.splitOn ",").mapM fun d => LogDirective.ofText? d.toList with
      | none => standardLogFilter
      | some ds => filterText ds

end LogQL.Command
