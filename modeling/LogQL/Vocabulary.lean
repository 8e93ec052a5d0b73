/-!
# The words of LogQL

What an editor can offer: a suggestion is a text to show, its kind, and what accepting it inserts.
The words that belong to the language itself stand in one table; label names and values come from
a data source and are dressed here as suggestions.
-/

namespace LogQL

/-- The category of a suggestion. -/
inductive WordKind where
  | keyword
  | function
  | operator
  | time
  | label
  | value
  deriving DecidableEq, Repr, Inhabited

/-- One completion offered to the user. -/
structure Suggestion where
  /-- The text shown. -/
  label : String
  kind : WordKind
  description : Option String
  /-- The text inserted, where it is not the label. -/
  insertText : Option String
  deriving DecidableEq, Repr, Inhabited

namespace Suggestion

/-- The text that accepting the suggestion inserts. -/
def insertion (s : Suggestion) : String := s.insertText.getD s.label

/-- A label name inserts itself and the equals sign of a matcher. -/
def ofLabel (name : String) : Suggestion :=
  ⟨name, .label, some "Label from Loki", some (name ++ "=")⟩

/-- A label value that replaces a quoted string. -/
def ofQuotedValue (label value : String) : Suggestion :=
  ⟨"'" ++ value ++ "'", .value, some ("Value for " ++ label), none⟩

/-- A label value that follows an equals sign and brings its quotes along. -/
def ofBareValue (label value : String) : Suggestion :=
  ⟨value, .value, some ("Value for " ++ label), some ("\"" ++ value ++ "\"")⟩

end Suggestion

namespace Vocabulary

/-- A word that is shown and inserted as it stands. -/
private def plain (label : String) (kind : WordKind) : Suggestion := ⟨label, kind, none, none⟩

/-- A word with an explanation. -/
private def described (label : String) (kind : WordKind) (description : String) : Suggestion :=
  ⟨label, kind, some description, none⟩

/-- A word that opens a construct and inserts its beginning. -/
private def opening (label : String) (kind : WordKind) (insertText : String) : Suggestion :=
  ⟨label, kind, none, some insertText⟩

/-- Parsers, formatters, aggregations, grouping, line filters and ranges. -/
def words : List Suggestion :=
  [ described "json" .keyword "Parse JSON logs",
    described "logfmt" .keyword "Parse logfmt logs",
    described "pattern" .keyword "Parse with pattern",
    described "regexp" .keyword "Parse with regex",
    ⟨"line_format", .function, some "Format log lines", some "line_format ''"⟩,
    ⟨"label_format", .function, some "Rename/format labels", some "label_format "⟩,
    described "rate" .function "Calculate events per second",
    described "count" .function "Count log entries",
    plain "sum" .function,
    plain "min" .function,
    plain "max" .function,
    plain "avg" .function,
    plain "stddev" .function,
    plain "stdvar" .function,
    opening "bottomk" .function "bottomk(5, ",
    opening "topk" .function "topk(5, ",
    opening "by" .keyword "by (",
    opening "without" .keyword "without (",
    described "|=" .operator "Line contains string",
    described "!=" .operator "Line does not contain string",
    described "|~" .operator "Line matches regex",
    described "!~" .operator "Line does not match regex",
    described "[1m]" .time "1 minute range",
    plain "[5m]" .time,
    plain "[15m]" .time,
    plain "[1h]" .time,
    plain "[1d]" .time ]

/-- The words of some kinds, in the order of the table. -/
def ofKinds (kinds : List WordKind) : List Suggestion := words.filter (kinds.contains ·.kind)

/-- The kinds of words that name a pipeline stage. -/
def stages : List WordKind := [.keyword, .function]

end Vocabulary

end LogQL
