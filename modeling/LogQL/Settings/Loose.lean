import LogQL.Document
import LogQL.Number.Double
import LogQL.Text.LowerCase
import LogQL.Yaml.Document

/-!
# Loose values

Where settings come from several places, one of them knows only texts. So their values are read
loosely: a value answers as whatever it can be taken for. A number is true unless it is zero, words
such as `yes` and `off` are truth values and, as numbers, one and zero; and what is not a text has
one.

JSON and YAML are turned into loose values first. Whole numbers of 64 bits are kept, and others
become doubles. A document that mentions a number beyond all doubles has no value.
-/

namespace LogQL

/-- A value that is read loosely. -/
inductive Loose where
  | absent
  | flag (b : Bool)
  /-- A whole number of 64 bits, with a sign. -/
  | whole (n : Int)
  | real (x : Double)
  | text (s : String)
  | items (vs : List Loose)
  /-- The keys are all different. -/
  | table (members : List (String × Loose))
  deriving Repr, Inhabited

namespace Loose

/-! ## What a value can be taken for -/

/-- The truth value that a word stands for. -/
def flagOfWord? (s : String) : Option Bool :=
  let word := Text.lower s
  if ["true", "on", "yes"].contains word then some true
  else if ["false", "off", "no"].contains word then some false
  else none

/-- A text. -/
def text? : Loose → Option String
  | .text s => some s
  | .flag b => some (if b then "true" else "false")
  | .whole n => some (Decimal.signedText n)
  | .real x => some x.shortest
  | .absent | .items _ | .table _ => none

/-- A truth value. -/
def flag? : Loose → Option Bool
  | .flag b => some b
  | .whole n => some (n ≠ 0)
  | .real x => some !x.isZero
  | .text s => if s = "1" then some true else if s = "0" then some false else flagOfWord? s
  | .absent | .items _ | .table _ => none

/-- A word of 64 bits. Doubles are rounded, and those out of range are taken for the nearest
word. -/
def word? : Loose → Option UInt64
  | .flag b => some (if b then 1 else 0)
  | .whole n => if n < 0 then none else some n.toNat.toUInt64
  | .real x => some (x.toNatBelow wordMax).toUInt64
  | .text s =>
    match flagOfWord? s with
    | some b => some (if b then 1 else 0)
    | none => do
      let n ← Decimal.readUnsigned? s.toList
      if n ≤ wordMax then some n.toUInt64 else none
  | .absent | .items _ | .table _ => none

/-- Whether there is no value. -/
def isAbsent : Loose → Bool
  | .absent => true
  | _ => false

/-- The fields of a record: those of a table, or the first items of a list. -/
def fields? (names : List String) : Loose → Option (List (Option Loose))
  | .table ms => some (names.map fun name => ms.lookup name)
  | .items vs =>
    some ((vs.take names.length).map some ++ List.replicate (names.length - vs.length) none)
  | _ => none

/-- Texts by key. -/
def texts? : Loose → Option (Dict String)
  | .table ms => do return Dict.ofList (← ms.mapM fun m => m.2.text?.map (m.1, ·))
  | _ => none

instance : Document Loose where
  text? := text?
  flag? := flag?
  word? := word?
  isNull := isAbsent
  fields? := fields?
  texts? := texts?

/-! ## Tables -/

/-- The members of a table, none for any other value. -/
def members : Loose → List (String × Loose)
  | .table ms => ms
  | _ => []

/-- Put a member among others, in the place of one with its key. -/
def put (key : String) (v : Loose) : List (String × Loose) → List (String × Loose)
  | [] => [(key, v)]
  | (k, w) :: rest => if k = key then (key, v) :: rest else (k, w) :: put key v rest

/-- The table of some members, of which the last one with a key counts. -/
def ofMembers (ms : List (String × Loose)) : Loose :=
  .table (ms.foldl (fun table m => put m.1 m.2 table) [])

/-! ## Numbers -/

/-- Whether a whole number is one of 64 bits with a sign. -/
def fits (n : Int) : Bool := -0x8000000000000000 ≤ n && n < 0x8000000000000000

/-- A finite double. -/
def ofDouble? : Double → Option Loose
  | .finite s m e => some (.real (.finite s m e))
  | _ => none

/-- A number of JSON. Zero with a minus is a double. -/
def ofNumber? : Json.Number → Option Loose
  | .whole negative n =>
    let z : Int := if negative then - (n : Int) else n
    if fits z ∧ !(negative ∧ n = 0) then some (.whole z) else ofDouble? (.nearest negative n 1)
  | .decimal negative digits exponent => ofDouble? (.ofDecimal negative digits exponent)

/-- A JSON value whose arrays and objects are nested no deeper than `room`. -/
def ofJson? : (room : Nat) → Json → Option Loose
  | _, .null => some .absent
  | _, .bool b => some (.flag b)
  | _, .number n => ofNumber? n
  | _, .string s => s.map .text
  | 0, .array _ | 0, .object _ => none
  | room + 1, .array vs => (vs.mapM (ofJson? room)).map .items
  | room + 1, .object ms =>
    (ms.mapM fun ((k, v) : Option String × Json) => do return (← k, ← ofJson? room v)).map ofMembers

/-! ## Scalars -/

/-- A whole number of 64 bits in digits of a base, with or without a sign. -/
def wholeIn? (base : Nat) (cs : List Char) : Option Int := do
  let n : Int ←
    match cs with
    | '-' :: cs => (Yaml.digits? base cs).map fun n => - (n : Int)
    | '+' :: cs => (Yaml.digits? base cs).map Int.ofNat
    | cs => (Yaml.digits? base cs).map Int.ofNat
  if fits n then some n else none

/-- The number that a word stands for, if any. The names of infinities stand for numbers that no
value has, and make the outer answer nothing. -/
def numberOfWord? (s : String) : Option (Option Loose) :=
  let cs := s.toList
  let based : Option Int :=
    match cs with
    | '0' :: 'x' :: ds => wholeIn? 16 ds
    | '0' :: 'o' :: ds => wholeIn? 8 ds
    | '+' :: ds => wholeIn? 10 ds
    | _ => none
  match based.or (wholeIn? 10 cs) with
  | some n => some (some (.whole n))
  | none =>
    if [".inf", ".Inf", ".INF", "+.inf", "+.Inf", "+.INF", "-.inf", "-.Inf", "-.INF", ".nan",
      ".NAN"].contains s then none
    else if s = "NaN" then some (some (.real .nan))
    else if cs.any Char.isDigit then some ((Double.read? cs).map .real)
    else some none

/-- A plain scalar of YAML. -/
def ofPlain? (s : String) : Option Loose :=
  if ["", "~", "null"].contains s then some .absent
  else if s = "true" then some (.flag true)
  else if s = "false" then some (.flag false)
  else (numberOfWord? s).map (·.getD (.text s))

/-- A scalar of YAML with a tag. One that does not fit its tag is as good as none. -/
def ofTagged? (tag s : String) : Option Loose :=
  if tag = Yaml.standardTag ++ "bool" then
    some (if s = "true" then .flag true else if s = "false" then .flag false else .absent)
  else if tag = Yaml.standardTag ++ "int" then
    some (((wholeIn? 10 s.toList).map .whole).getD .absent)
  else if tag = Yaml.standardTag ++ "float" then
    match numberOfWord? s with
    | none => none
    | some (some (.whole n)) => some (.real (.nearest (n < 0) n.natAbs 1))
    | some v => some (v.getD .absent)
  else if tag = Yaml.standardTag ++ "null" then some .absent
  else some (.text s)

/-- A scalar of YAML. -/
def ofScalar? (style : Yaml.Style) (tag : Option String) (s : String) : Option Loose :=
  match style, tag with
  | .plain, none => ofPlain? s
  | .plain, some tag => ofTagged? tag s
  | _, _ => some (.text s)

/-- The text of a key. -/
def keyText? : Loose → Option String
  | .text s => some s
  | .whole n => some (Decimal.signedText n)
  | .flag b => some (if b then "true" else "false")
  | _ => none

/-- The key that a value of YAML is. -/
def ofKey? : Yaml → Option String
  | .scalar style tag s => (ofScalar? style tag s).bind keyText?
  | _ => none

mutual

/-- A value of YAML. No key may be given twice. -/
def ofYaml? : Yaml → Option Loose
  | .scalar style tag s => ofScalar? style tag s
  | .sequence vs => (ofItems? vs).map .items
  | .mapping ms => do
    let ms ← ofMembers? ms
    if (ms.map Prod.fst).Nodup then return .table ms else none

/-- The items of a sequence. -/
def ofItems? : List Yaml → Option (List Loose)
  | [] => some []
  | v :: vs => do return (← ofYaml? v) :: (← ofItems? vs)

/-- The members of a mapping. -/
def ofMembers? : List (Yaml × Yaml) → Option (List (String × Loose))
  | [] => some []
  | (k, v) :: ms => do return (← ofKey? k, ← ofYaml? v) :: (← ofMembers? ms)

end

end Loose

end LogQL
