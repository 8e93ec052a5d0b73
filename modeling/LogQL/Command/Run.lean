import LogQL.Command.Line
import LogQL.Command.Report
import LogQL.Settings.Layers

/-!
# Running a command

A command gathers its settings, connects to the source they name, reads its query, and reports.
What lies outside of the program comes from a `Host`, whose operations may run in any monad, and
from a `Transport`; each is asked only for what the command needs.
-/

namespace LogQL.Command

/-- What a command finds around it. -/
structure Host (m : Type → Type) where
  /-- What a path leads to. -/
  look : String → m Found
  /-- All of the standard input. -/
  input : m (List UInt8)
  /-- The variables of the environment. -/
  environment : m (List (String × String))
  style : Style

/-- What came of a command: the text it printed, and why it failed, if it did. -/
structure Outcome where
  printed : String
  failure : Option Failure
  deriving DecidableEq, Repr, Inhabited

namespace Outcome

/-- A command that failed before it printed anything. -/
def failed (f : Failure) : Outcome := ⟨"", some f⟩

/-- A report as it is printed: with a line break, and not at all if it is empty. -/
def ofReport (report : String) : Outcome := ⟨if report = "" then "" else report ++ "\n", none⟩

/-- The exit code. -/
def exitCode (o : Outcome) : Nat := (o.failure.map Failure.exitCode).getD 0

end Outcome

variable {m : Type → Type} [Monad m] {σ : Type}

/-- The text of bytes that are to be a query. -/
def queryOfBytes (bytes : List UInt8) : Except Failure String :=
  match Text.Utf8.read? bytes with
  | some text => .ok text
  | none => .error (.input "the bytes are no text")

/-- Read a query from what a path leads to. -/
def readFile (host : Host m) (path : String) : m (Except Failure String) := do
  match ← host.look path with
  | .file bytes => pure (queryOfBytes bytes)
  | .other => pure (.error (.input "not a file"))
  | .nothing => pure (.error (.input "there is no such file"))

/-- Read a query. A path that is no more than a dash stands for the standard input. -/
def Input.read (i : Input) (host : Host m) : m (Except Failure String) := do
  match i.query, i.file with
  | some query, _ => pure (.ok query)
  | none, none => return queryOfBytes (← host.input)
  | none, some path =>
    if Path.parts path = Path.parts "-" then return queryOfBytes (← host.input)
    else readFile host path

/-- The settings for a line. A source that the line names goes before all others, but these have
to be right as well. -/
def Line.settings (line : Line) (host : Host m) : m (Except Failure Settings) := do
  let gathered ← Settings.gather host.look line.config (← host.environment)
  let settings : Except Settings.Failure Settings := do
    match line.source with
    | none => gathered
    | some source => Settings.validate { ← gathered with source := some source }
  pure (settings.mapError .settings)

/-- The outcome of a report on which nothing more depends. -/
def outcomeOf : Except Failure String × σ → Outcome × σ
  | (.ok report, w) => (.ofReport report, w)
  | (.error f, w) => (.failed f, w)

/-- The outcome of a list, which is printed even if it is empty. -/
def outcomeOfList : Except Failure String × σ → Outcome × σ
  | (.ok report, w) => (⟨report ++ "\n", none⟩, w)
  | (.error f, w) => (.failed f, w)

/-- Do what a line says, in a session. -/
def Line.perform (line : Line) (host : Host m) (fetch : Fetch.Fetcher σ) (s : Session) (w : σ) :
    m (Outcome × σ) := do
  let format : Notation := if line.json then .json else .text
  match line.action with
  | .lint input =>
    match ← input.read host with
    | .error f => pure (.failed f, w)
    | .ok query =>
      let (report, errors) := lintReport host.style format s query
      let printed := (Outcome.ofReport report).printed
      pure (⟨printed, if errors = 0 then none else some (.lint errors)⟩, w)
  | .complete input offset isExplicit =>
    match ← input.read host with
    | .error f => pure (.failed f, w)
    | .ok query =>
      pure (outcomeOf (completeReport host.style format fetch s query offset isExplicit w))
  | .labels => pure (outcomeOfList (answerReport format fetch s .names w))
  | .values label => pure (outcomeOfList (answerReport format fetch s (.values label) w))

/-- Run a command. -/
def Line.run (line : Line) (host : Host m) (transport : Fetch.Transport σ) (w : σ) :
    m (Outcome × σ) := do
  match ← line.settings host with
  | .error f => pure (.failed f, w)
  | .ok settings =>
    match Session.connect settings with
    | .error cause => pure (.failed (.settings cause), w)
    | .ok (s, client) => line.perform host (client.fetch transport) s w

end LogQL.Command
