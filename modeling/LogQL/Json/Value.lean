import LogQL.Number.Decimal

/-!
# JSON values

A value keeps what its text says. Numbers are exact decimals, with whole numbers kept apart from
those written with a fraction or an exponent; the members of an object keep their order and their
repetitions; and a string literal may have no text at all, when its escapes name half of a
surrogate pair. Such a literal is well-formed JSON, so it may stand wherever nobody asks for its
text.
-/

namespace LogQL

namespace Json

/-- A number as it is written. -/
inductive Number where
  /-- Digits only. -/
  | whole (negative : Bool) (magnitude : Nat)
  /-- The number `digits * 10 ^ exponent`, or its negative, written with a fraction or an exponent. -/
  | decimal (negative : Bool) (digits : Nat) (exponent : Int)
  deriving DecidableEq, Repr, Inhabited

end Json

/-- A JSON value. -/
inductive Json where
  | null
  | bool (b : Bool)
  | number (n : Json.Number)
  /-- A string literal, with its text if it has one. -/
  | string (text : Option String)
  | array (items : List Json)
  | object (members : List (Option String × Json))
  deriving Repr, Inhabited

namespace Json

/-- The string with this text. -/
def str (s : String) : Json := .string (some s)

/-- A natural number. -/
def nat (n : Nat) : Json := .number (.whole false n)

/-- An object whose keys all have text. -/
def obj (members : List (String × Json)) : Json :=
  .object (members.map fun m => (some m.1, m.2))

/-- A value, or `null` where there is none. -/
def ofOption {α : Type} (f : α → Json) : Option α → Json
  | some a => f a
  | none => .null

end Json

end LogQL
