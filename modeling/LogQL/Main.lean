import LogQL.Command.Run

/-!
# The program

The outermost layer: it takes the arguments, the environment and the files of the process to
`Command.Line.run`, and puts what comes of it on the standard output and the standard error. The
program has no connection to a network, so a source that has to be asked is never reached.
-/

namespace LogQL.Main

open Command

/-- What the program is called, and its version. -/
def versionText : String := "logql 0.1.0"

/-- How the program is called. -/
def usage : String :=
  "Usage: logql [OPTIONS] <COMMAND>\n\n" ++
  "Commands:\n" ++
  "  lint [FILE] [-q QUERY]       Report structural problems in a query\n" ++
  "  complete [FILE] [-q QUERY] [--offset N] [--explicit]\n" ++
  "                               Print completion suggestions at a byte offset\n" ++
  "  labels                       List label names known to Loki\n" ++
  "  values <LABEL>               List values of a label\n" ++
  "  help [COMMAND]               Print this message\n\n" ++
  "Options:\n" ++
  "  --config <FILE>              Configuration file (.yaml, .yml or .json)\n" ++
  "  --source <URL>               Loki base URL, overrides the configuration\n" ++
  "  --log-level <LEVEL>          Log filter\n" ++
  "  --json                       Print JSON instead of text\n" ++
  "  -h, --help                   Print help\n" ++
  "  -V, --version                Print version\n"

/-- What is wrong with the arguments. -/
def explain : Refusal → String
  | .help | .version | .nothing => ""
  | .missingCommand => "a command is missing"
  | .unknownCommand => "there is no such command"
  | .unknownArgument => "there is an argument that the command does not take"
  | .missingValue => "a value is missing"
  | .badValue => "a value is not of the right kind"
  | .unneededValue => "an option that takes no value has one"
  | .conflict => "an option is given twice, or two exclude each other"
  | .missingArgument => "an argument is missing"

/-- Say why the arguments are not followed. -/
def refuse (r : Refusal) : IO UInt32 := do
  match r with
  | .help => IO.print usage
  | .version => IO.println versionText
  | .nothing => IO.eprint usage
  | _ => IO.eprint ("error: " ++ explain r ++ "\n\n" ++ usage)
  return r.exitCode.toUInt32

/-- What a path leads to on this machine. -/
def look (path : String) : IO Found := do
  match ← (IO.FS.readBinFile path).toBaseIO with
  | .ok bytes => return .file bytes.toList
  | .error (.noFileOrDirectory ..) => return .nothing
  | .error _ => return .other

/-- The texts between null characters. -/
def pieces (bytes : List UInt8) : List (List UInt8) :=
  (bytes.splitBy fun a b => a != 0 && b != 0).filter (· != [0])

/-- The name and the value of a variable. Variables whose text is none are passed over. -/
def readVariable? (bytes : List UInt8) : Option (String × String) := do
  let name ← Text.Utf8.read? (bytes.takeWhile (· != '='.toUInt8))
  let value ← Text.Utf8.read? ((bytes.dropWhile (· != '='.toUInt8)).drop 1)
  return (name, value)

/-- The variables of the environment. -/
def environment : IO (List (String × String)) := do
  match ← look "/proc/self/environ" with
  | .file bytes => return (pieces bytes).filterMap readVariable?
  | _ => return []

/-- The surroundings of the program. -/
def host : IO (Host IO) := do
  return {
    look
    input := do return (← (← IO.getStdin).readBinToEnd).toList
    environment
    style := ⟨← (← IO.getStdout).isTty⟩ }

end LogQL.Main

open LogQL LogQL.Main in
/-- Run the program. -/
def main (arguments : List String) : IO UInt32 := do
  match Command.Line.read arguments with
  | .error r => refuse r
  | .ok line =>
    let host ← host
    let (outcome, _) ← line.run host Fetch.Transport.unreachable ()
    IO.print outcome.printed
    if let some f := outcome.failure then IO.eprintln (host.style.failure f.userMessage)
    return outcome.exitCode.toUInt32
