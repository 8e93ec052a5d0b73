import LogQL.Number.Decimal
import LogQL.Time

/-!
# The command line

A command line names what to do, with its particulars, and some settings that may stand before as
well as after that name; what stands after it counts.

Arguments are taken in one after the other. One that takes a value may have it attached or find it
in the next argument, unless that looks like another switch. A value is checked no sooner than the
next argument is accepted, so that of two mistakes a switch that nobody knows comes first. After two
dashes nothing is a switch any more.
-/

namespace LogQL.Command

/-- Where a query comes from: itself, a file, or else the standard input. -/
structure Input where
  file : Option String
  query : Option String
  deriving DecidableEq, Repr, Inhabited

/-- What to do. -/
inductive Action where
  | lint (input : Input)
  | complete (input : Input) (offset : Option Nat) (isExplicit : Bool)
  | labels
  | values (label : String)
  deriving DecidableEq, Repr, Inhabited

/-- A command line. -/
structure Line where
  action : Action
  /-- The file with the settings. -/
  config : Option String
  source : Option String
  logLevel : Option String
  json : Bool
  deriving DecidableEq, Repr, Inhabited

/-- Why a command line is not followed. -/
inductive Refusal where
  /-- Help is asked for. -/
  | help
  /-- The version is asked for. -/
  | version
  /-- Nothing is asked for. -/
  | nothing
  | missingCommand
  | unknownCommand
  | unknownArgument
  | missingValue
  | badValue
  /-- A switch that takes no value has one. -/
  | unneededValue
  /-- A switch is given twice, or two that exclude each other. -/
  | conflict
  | missingArgument
  deriving DecidableEq, Repr, Inhabited

/-- The exit code after a refusal. -/
def Refusal.exitCode : Refusal → Nat
  | .help | .version => 0
  | _ => 2

/-! ## Words -/

/-- The names of actions. -/
inductive Verb where
  | lint
  | complete
  | labels
  | values
  deriving DecidableEq, Repr, Inhabited

/-- The action of a name. -/
def Verb.ofName? : String → Option Verb
  | "lint" => some .lint
  | "complete" => some .complete
  | "labels" => some .labels
  | "values" => some .values
  | _ => none

/-- Whether a word can stand where an action is named. -/
def isCommand (word : String) : Bool := (Verb.ofName? word).isSome || word == "help"

/-- What may be given by name. -/
inductive Switch where
  | config
  | source
  | logLevel
  | query
  | offset
  | json
  | explicit
  | help
  | version
  deriving DecidableEq, Repr, Inhabited

namespace Switch

/-- The switch with a long name. -/
def ofLong? : String → Option Switch
  | "config" => some .config
  | "source" => some .source
  | "log-level" => some .logLevel
  | "query" => some .query
  | "offset" => some .offset
  | "json" => some .json
  | "explicit" => some .explicit
  | "help" => some .help
  | "version" => some .version
  | _ => none

/-- The switch with a short name. -/
def ofShort? : Char → Option Switch
  | 'q' => some .query
  | 'h' => some .help
  | 'V' => some .version
  | _ => none

/-- The switch takes a value. -/
def takesValue : Switch → Bool
  | .config | .source | .logLevel | .query | .offset => true
  | .json | .explicit | .help | .version => false

/-- The switch may be given after the name of an action, or before it. -/
def isKnownTo (s : Switch) (verb : Option Verb) : Bool :=
  match s with
  | .config | .source | .logLevel | .json | .help => true
  | .version => verb.isNone
  | .query => verb == some .lint || verb == some .complete
  | .offset | .explicit => verb == some .complete

end Switch

/-! ## Taking in arguments -/

/-- What is still to be checked. -/
inductive Pending where
  | nothing
  /-- The value of a switch is to follow. -/
  | awaits (s : Switch)
  | holds (s : Switch) (value : String)
  /-- An argument without a switch. -/
  | free (word : String)
  deriving DecidableEq, Repr, Inhabited

/-- What was given so far, before or after the name of the action. -/
structure Given where
  verb : Option Verb
  /-- The switches that were accepted, with their values. -/
  switches : List (Switch × String)
  /-- The argument without a switch. -/
  word : Option String
  pending : Pending
  /-- No switches follow. -/
  isTrailing : Bool
  deriving DecidableEq, Repr, Inhabited

/-- The number in an offset: one of 64 bits, without a sign or with a plus. -/
def offset? (value : String) : Option Nat :=
  (Decimal.readUnsigned? value.toList).filter (· ≤ wordMax)

namespace Given

/-- Nothing was given. -/
def none (verb : Option Verb) : Given := ⟨verb, [], Option.none, .nothing, false⟩

/-- The value of a switch, if it was given. -/
def value? (g : Given) (s : Switch) : Option String := g.switches.lookup s

/-- Accept a switch with a value. -/
def accept (g : Given) (s : Switch) (value : String) : Except Refusal Given :=
  if (g.value? s).isSome then .error .conflict
  else if s = .config ∧ value.isEmpty then .error .missingValue
  else if s = .offset ∧ (offset? value).isNone then .error .badValue
  else .ok { g with switches := g.switches ++ [(s, value)] }

/-- Check what is still to be checked. -/
def settle (g : Given) : Except Refusal Given :=
  let done := { g with pending := .nothing }
  match g.pending with
  | .nothing => .ok done
  | .awaits _ => .error .missingValue
  | .holds s value => done.accept s value
  | .free word =>
    if word.isEmpty ∧ g.verb ≠ some .values then .error .missingValue
    else .ok { done with word := some word }

/-- Whether a free argument was given. -/
def hasWord (g : Given) : Bool :=
  g.word.isSome ||
    match g.pending with
    | .free _ => true
    | _ => false

/-- Take in a switch without a value. -/
def turnOn (g : Given) (s : Switch) : Except Refusal Given := do
  let g ← g.settle
  match s with
  | .help => throw .help
  | .version => throw .version
  | _ => g.accept s ""

/-- Take in a switch with the value attached to it. -/
def attach (g : Given) (s : Switch) (value : String) : Except Refusal Given := do
  (← g.settle).accept s value

/-- Take in a switch whose value is to follow. -/
def await (g : Given) (s : Switch) : Except Refusal Given := do
  return { ← g.settle with pending := .awaits s }

/-- Take in an argument without a switch. -/
def takeWord (g : Given) (word : String) : Except Refusal Given :=
  match g.verb with
  | Option.none =>
    .error (if g.isTrailing && isCommand word then .unknownArgument else .unknownCommand)
  | some .labels => .error .unknownArgument
  | some _ =>
    if g.hasWord then .error .unknownArgument
    else do return { ← g.settle with pending := .free word }

/-- Take in a switch by its long name. -/
def takeLong (g : Given) (text : List Char) : Except Refusal Given :=
  let name := text.takeWhile (· != '=')
  match (Switch.ofLong? (String.ofList name)).filter (·.isKnownTo g.verb) with
  | Option.none => .error .unknownArgument
  | some s =>
    match text.drop name.length with
    | '=' :: value =>
      if s.takesValue then g.attach s (String.ofList value) else .error .unneededValue
    | _ => if s.takesValue then g.await s else g.turnOn s

/-- Take in switches by their short names, of which the last one may have a value. -/
def takeShort (g : Given) : List Char → Except Refusal Given
  | [] => .ok g
  | c :: cs =>
    match (Switch.ofShort? c).filter (·.isKnownTo g.verb) with
    | Option.none => .error .unknownArgument
    | some s =>
      if s.takesValue then
        match cs with
        | [] => g.await s
        | '=' :: value => g.attach s (String.ofList value)
        | value => g.attach s (String.ofList value)
      else do (← g.turnOn s).takeShort cs

/-- Take in an argument. -/
def take (g : Given) (argument : String) : Except Refusal Given :=
  if g.isTrailing then g.takeWord argument
  else
    match argument.toList with
    | ['-', '-'] => .ok { g with isTrailing := true }
    | '-' :: '-' :: text => g.takeLong text
    | '-' :: c :: cs => g.takeShort (c :: cs)
    | _ =>
      match g.pending with
      | .awaits s => .ok { g with pending := .holds s argument }
      | _ => g.takeWord argument

/-- Whether the next argument may name an action. -/
def mayName (g : Given) : Bool :=
  !g.isTrailing &&
    match g.pending with
    | .awaits _ => false
    | _ => true

/-- The action that was given, after everything was checked. -/
def action (g : Given) : Verb → Except Refusal Action
  | .lint => do return .lint (← input g)
  | .complete => do
    return .complete (← input g) ((g.value? .offset).bind offset?) (g.value? .explicit).isSome
  | .labels => .ok .labels
  | .values =>
    match g.word with
    | some label => .ok (.values label)
    | Option.none => .error .missingArgument
where
  /-- Where the query comes from. -/
  input (g : Given) : Except Refusal Input :=
    if g.word.isSome && (g.value? .query).isSome then .error .conflict
    else .ok ⟨g.word, g.value? .query⟩

end Given

/-! ## The whole line -/

/-- The request for help about some action. -/
def helpOn : List String → Refusal
  | [] => .help
  | [word] => if isCommand word then .help else .unknownCommand
  | _ => .unknownCommand

/-- Read what stands after the name of an action, given what stands before it. -/
def Line.readAfter (front : Given) (verb : Verb) (arguments : List String) :
    Except Refusal Line := do
  let g ← (← arguments.foldlM Given.take (.none (some verb))).settle
  let action ← g.action verb
  let front ← front.settle
  let value? (s : Switch) := (g.value? s).or (front.value? s)
  return {
    action
    config := value? .config
    source := value? .source
    logLevel := value? .logLevel
    json := (value? .json).isSome }

/-- Read a line, given what was given so far. -/
def Line.readFrom (front : Given) : List String → Except Refusal Line
  | [] => do
    let front ← front.settle
    throw (if front.switches.isEmpty then .nothing else .missingCommand)
  | argument :: rest =>
    match if front.mayName then Verb.ofName? argument else none with
    | some verb => readAfter front verb rest
    | none =>
      if front.mayName && argument == "help" then .error (helpOn rest)
      else do readFrom (← front.take argument) rest

/-- Read a command line, without the name of the program. -/
def Line.read (arguments : List String) : Except Refusal Line := readFrom (.none none) arguments

end LogQL.Command
