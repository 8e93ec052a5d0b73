import LogQL.Command.Failure
import LogQL.Diagnostic.Position
import LogQL.Json.Codec
import LogQL.Session

/-!
# Reports

What a command has to say, as lines of text or as JSON. Findings are shown with the line and the
character at which they begin, both counted from one. An offer begins with a line for its anchor,
and has one line for each suggestion, less the blanks at its end.
-/

namespace LogQL.Command

/-- How a report is written. -/
inductive Notation where
  | text
  | json
  deriving DecidableEq, Repr, Inhabited

/-- How a report looks. -/
structure Style where
  isColored : Bool
  deriving DecidableEq, Repr, Inhabited

namespace Style

/-- Without colours. -/
def plain : Style := ⟨false⟩

/-- The end of a colour. -/
def reset : String := "\x1b[0m"

/-- A text in a colour, given by the sign that begins it. The colour also goes on where one inside
of the text ends. -/
def paint (style : Style) (colour text : String) : String :=
  if style.isColored then colour ++ text.replace reset (reset ++ colour) ++ reset else text

/-- The colour of what is wrong. -/
def bad : String := "\x1b[1;31m"

/-- The colour of a warning. -/
def caution : String := "\x1b[33m"

/-- The colour of a suggestion. -/
def offer : String := "\x1b[36m"

/-- A message about a failure. -/
def failure (style : Style) (message : String) : String := style.paint bad "✗" ++ " " ++ message

/-- The word for a severity. -/
def severity (style : Style) : Diagnostic.Severity → String
  | .error => style.paint bad Diagnostic.Severity.error.word
  | .warning => style.paint caution Diagnostic.Severity.warning.word

/-- The line for a finding. -/
def finding (style : Style) (text : List Char) (d : Diagnostic) : String :=
  let p := Position.ofOffset text d.start
  Decimal.text (p.line.toNat + 1) ++ ":" ++ Decimal.text (p.character.toNat + 1) ++ " "
    ++ style.severity d.severity ++ " " ++ d.message

/-- The line for a suggestion. -/
def suggestion (style : Style) (s : Suggestion) : String :=
  let line := style.paint offer s.label ++ "\t" ++ s.insertion ++ "\t" ++ s.description.getD ""
  String.ofList (Text.trimEnd line.toList)

/-- The lines for an offer. -/
def completion (style : Style) (c : Completion) : List String :=
  ("anchor " ++ Decimal.text c.anchor) :: c.suggestions.map style.suggestion

end Style

/-- Lines with line breaks between them. -/
def joinLines (lines : List String) : String := "\n".intercalate lines

open Json.Codec (encode)

variable {σ : Type}

/-- The findings about a query, and the number of errors among them. -/
def lintReport (style : Style) (format : Notation) (s : Session) (query : String) :
    String × Nat :=
  let ds := s.lint query.toList none
  let report :=
    match format with
    | .json => (encode ds).pretty
    | .text => joinLines (ds.map (style.finding query.toList))
  (report, ds.countP (·.severity == .error))

/-- A query without the line break at its end. -/
def queryOf (text : List Char) : List Char :=
  if text.getLast? = some '\n' then text.dropLast else text

/-- The offer at an offset of a query, which is its end if none is given. -/
def completeReport (style : Style) (format : Notation) (fetch : Fetch.Fetcher σ)
    (s : Session) (text : String) (offset : Option Nat) (isExplicit : Bool) (w : σ) :
    Except Failure String × σ :=
  let query := queryOf text.toList
  let size := Text.byteLength query
  let offset := offset.getD size
  if size < offset then
    (.error (.badArgument ("offset " ++ Decimal.text offset ++ " is past the end of the input ("
      ++ Decimal.text size ++ " bytes)")), w)
  else
    let ((_, offer), _, w) := s.complete fetch 0 ⟨query, offset, none, isExplicit⟩ w
    let report :=
      match format, offer with
      | .json, offer => (encode offer).pretty
      | .text, some c => joinLines (style.completion c)
      | .text, none => ""
    (.ok report, w)

/-- The answer to a question. Other than in an offer, a failure is reported. -/
def answerReport (format : Notation) (fetch : Fetch.Fetcher σ) (s : Session)
    (q : Cache.Question) (w : σ) : Except Failure String × σ :=
  match s.ask fetch 0 q w with
  | (.error cause, _, w) => (.error (.source cause), w)
  | (.ok answer, _, w) =>
    let report :=
      match format with
      | .json => (encode answer.values).pretty
      | .text => joinLines answer.values
    (.ok report, w)

end LogQL.Command
