import LogQL.Dict
import LogQL.Json.Value
import LogQL.Time

/-!
# Documents

Settings are written down in several notations. What they have in common is that a value of the
notation can be asked for a text, a truth value, a word of 64 bits, or the fields of a record, and
that each notation has its own idea of which values answer. `Document` is that common part, and
whatever is read from a document is written once, against it.

The instance for JSON is the strictest: a value answers only as what it is.
-/

namespace LogQL

/-- A notation whose values can be asked for what settings are made of. -/
class Document (ν : Type) where
  text? : ν → Option String
  flag? : ν → Option Bool
  word? : ν → Option UInt64
  /-- The value stands for the absence of a value. -/
  isNull : ν → Bool
  /-- The values of these fields, in this order, each with the value of the field if it is given.
  Other fields are passed over. -/
  fields? : List String → ν → Option (List (Option ν))
  /-- Texts by key. -/
  texts? : ν → Option (Dict String)

namespace Document

variable {ν : Type} [Document ν] {α : Type}

/-- A value that may be absent, in the document or in its meaning. -/
def optional? (read? : ν → Option α) (v : ν) : Option (Option α) :=
  if isNull v then some none else (read? v).map some

/-- A field that has a standard value. -/
def fieldOr? (standard : α) (read? : ν → Option α) : Option ν → Option α
  | some v => read? v
  | none => some standard

/-- A field that has to be given. -/
def field? (read? : ν → Option α) : Option ν → Option α
  | some v => read? v
  | none => none

end Document

/-- The only value that members give a key, or none; nothing if the key is given twice. -/
def Document.single? {ν : Type} (members : List (String × ν)) (key : String) :
    Option (Option ν) :=
  match (members.filter (·.1 = key)).map Prod.snd with
  | [] => some none
  | [v] => some (some v)
  | _ => none

namespace Json

/-- The text of a string. -/
def text? : Json → Option String
  | .string s => s
  | _ => none

/-- A truth value. -/
def flag? : Json → Option Bool
  | .bool b => some b
  | _ => none

/-- A natural number up to a limit, written with digits only and without a sign. -/
def natUpTo? (limit : Nat) : Json → Option Nat
  | .number (.whole false n) => if n ≤ limit then some n else none
  | _ => none

/-- A word of 64 bits. -/
def word? (v : Json) : Option UInt64 := (v.natUpTo? wordMax).map Nat.toUInt64

/-- Whether this is `null`. -/
def isNull : Json → Bool
  | .null => true
  | _ => false

/-- The members of an object by their keys, all of which have to have text. -/
def members? : Json → Option (List (String × Json))
  | .object ms => ms.mapM fun m => m.1.map (·, m.2)
  | _ => none

/-- The items of an array. -/
def items? : Json → Option (List Json)
  | .array items => some items
  | _ => none

/-- The fields of a record: an object, or an array that gives the first of the fields in order. -/
def fields? (names : List String) : Json → Option (List (Option Json))
  | .array items =>
    if items.length ≤ names.length then
      some (items.map some ++ List.replicate (names.length - items.length) none)
    else none
  | v => do names.mapM (Document.single? (← v.members?))

/-- Texts by key; of a key given twice the last value counts. -/
def texts? (v : Json) : Option (Dict String) := do
  let es ← (← v.members?).mapM fun m => m.2.text?.map (m.1, ·)
  return Dict.ofList es

instance : Document Json where
  text? := text?
  flag? := flag?
  word? := word?
  isNull := isNull
  fields? := fields?
  texts? := texts?

end Json

end LogQL
