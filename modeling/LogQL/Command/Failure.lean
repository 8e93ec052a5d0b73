import LogQL.Labels.Reply
import LogQL.Settings.Failure

/-!
# Why a command fails

Every failure has a text, a message for the user, which may say what to do about it, and an exit
code: 1 for a query with errors, 2 for a mistake in how the program was called, 3 for everything
else.
-/

namespace LogQL.Command

/-- Why a command fails. -/
inductive Failure where
  | badArgument (message : String)
  /-- The query cannot be read. -/
  | input (reason : String)
  | settings (cause : Settings.Failure)
  | source (cause : Labels.Failure)
  /-- The report cannot be written down. -/
  | output (reason : String)
  /-- The query has errors. -/
  | lint (errors : Nat)
  deriving DecidableEq, Repr, Inhabited

namespace Failure

/-- The text of a failure. -/
def text : Failure → String
  | .badArgument message => "Invalid argument: " ++ message
  | .input reason => "IO error: " ++ reason
  | .settings cause => "Configuration error: " ++ cause.message
  | .source cause => "Label source error: " ++ cause.message
  | .output reason => "Serialization error: " ++ reason
  | .lint errors => Decimal.text errors ++ " lint error(s)"

/-- The message for the user. -/
def userMessage : Failure → String
  | .badArgument message =>
    "Invalid argument: " ++ message ++ "\n\nRun 'logql --help' for usage information."
  | .input reason => "File operation failed: " ++ reason
  | .settings cause =>
    "Configuration error: " ++ cause.message
      ++ "\n\nCheck the file passed with --config and LOGQL_* variables."
  | .source .notConfigured =>
    "No Loki source configured.\n\nPass --source <url> or set LOGQL_SOURCE."
  | .source cause => "Could not query Loki: " ++ cause.message
  | .output reason => "Failed to serialize output: " ++ reason
  | .lint errors => "Found " ++ Decimal.text errors ++ " lint error(s)"

/-- The exit code after a failure. -/
def exitCode : Failure → Nat
  | .lint _ => 1
  | .badArgument _ | .settings _ => 2
  | .input _ | .source _ | .output _ => 3

end Failure

end LogQL.Command
