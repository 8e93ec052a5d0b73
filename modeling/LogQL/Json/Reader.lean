import LogQL.Json.Token

/-!
# Reading JSON

Tokens are taken in one after the other by a reader that remembers the arrays and objects it is
inside of. What it has taken in and what is left always make up the tokens of the value it will
give (`Json.tokens`), so a list of tokens is read as a value exactly if it is the list of the
value's tokens.
-/

namespace LogQL.Json

/-- An array or object under way, with its complete items in reverse. -/
inductive Frame where
  | array (items : List Json)
  /-- The key is that of the member under way. -/
  | object (members : List (Option String × Json)) (key : Option String)
  deriving Inhabited

/-- What a reader waits for. -/
inductive Reader where
  /-- A value. -/
  | value (outer : List Frame)
  /-- The first item of an array, or its end. -/
  | firstItem (outer : List Frame)
  /-- A comma or the end of an array. -/
  | afterItem (items : List Json) (outer : List Frame)
  /-- The first key of an object, or its end. -/
  | firstKey (outer : List Frame)
  /-- A key. -/
  | key (members : List (Option String × Json)) (outer : List Frame)
  /-- The colon after a key. -/
  | afterKey (members : List (Option String × Json)) (key : Option String) (outer : List Frame)
  /-- A comma or the end of an object. -/
  | afterMember (members : List (Option String × Json)) (outer : List Frame)
  /-- Nothing more. -/
  | done (v : Json)
  deriving Inhabited

namespace Reader

/-- Put a complete value where it belongs. -/
def hand (v : Json) : List Frame → Reader
  | [] => .done v
  | .array items :: outer => .afterItem (v :: items) outer
  | .object members k :: outer => .afterMember ((k, v) :: members) outer

/-- Take in a token where a value is due. -/
def stepValue (outer : List Frame) : Token → Option Reader
  | .null => some (hand .null outer)
  | .bool b => some (hand (.bool b) outer)
  | .number n => some (hand (.number n) outer)
  | .string s => some (hand (.string s) outer)
  | .beginArray => some (.firstItem outer)
  | .beginObject => some (.firstKey outer)
  | _ => none

/-- Take in a token. -/
def step : Reader → Token → Option Reader
  | .value outer, t => stepValue outer t
  | .firstItem outer, .endArray => some (hand (.array []) outer)
  | .firstItem outer, t => stepValue (.array [] :: outer) t
  | .afterItem items outer, .comma => some (.value (.array items :: outer))
  | .afterItem items outer, .endArray => some (hand (.array items.reverse) outer)
  | .firstKey outer, .endObject => some (hand (.object []) outer)
  | .firstKey outer, .string k => some (.afterKey [] k outer)
  | .key members outer, .string k => some (.afterKey members k outer)
  | .afterKey members k outer, .colon => some (.value (.object members k :: outer))
  | .afterMember members outer, .comma => some (.key members outer)
  | .afterMember members outer, .endObject => some (hand (.object members.reverse) outer)
  | _, _ => none

/-- The value that a reader gives at the end of the tokens. -/
def finish : Reader → Option Json
  | .done v => some v
  | _ => none

/-- Take in all tokens. -/
def run : Reader → List Token → Option Json
  | r, [] => r.finish
  | r, t :: ts => (r.step t).bind (run · ts)

end Reader

/-- The value that a list of tokens spells. -/
def ofTokens? (ts : List Token) : Option Json := (Reader.value []).run ts

/-- The value that a text spells. -/
def read? (text : String) : Option Json := (tokens? text.toList).bind ofTokens?

end LogQL.Json
