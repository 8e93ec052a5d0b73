/-!
# Diagnostics

What a check reports: a stretch of the text, how bad it is, and a message. The rules can be
switched off one by one.
-/

namespace LogQL

namespace Diagnostic

/-- How bad a finding is. -/
inductive Severity where
  | error
  | warning
  deriving DecidableEq, Repr, Inhabited

/-- The word for a severity. -/
def Severity.word : Severity → String
  | .error => "error"
  | .warning => "warning"

/-- The rules that texts are checked by. -/
inductive Rule where
  | quotes
  | brackets
  | parseErrors
  | emptySelector
  deriving DecidableEq, Repr, Inhabited

/-- Which rules are on. -/
structure Options where
  quotes : Bool
  brackets : Bool
  parseErrors : Bool
  emptySelector : Bool
  deriving DecidableEq, Repr, Inhabited

/-- Every rule is on. -/
def Options.all : Options := ⟨true, true, true, true⟩

/-- Whether a rule is on. -/
def Options.enables (o : Options) : Rule → Bool
  | .quotes => o.quotes
  | .brackets => o.brackets
  | .parseErrors => o.parseErrors
  | .emptySelector => o.emptySelector

end Diagnostic

/-- A finding about the bytes from `start` up to `stop`. -/
structure Diagnostic where
  start : Nat
  stop : Nat
  severity : Diagnostic.Severity
  message : String
  rule : Diagnostic.Rule
  deriving DecidableEq, Repr, Inhabited

end LogQL
