import LogQL.Document
import LogQL.Yaml.Value

/-!
# Settings in YAML

What the scalars of a document stand for. Any scalar is a text. Words and numbers are truth values
and words of 64 bits only where they are written plainly, or with a tag that says so. A value that
is left out is a record without fields.
-/

namespace LogQL.Yaml

/-- The text of a scalar. -/
def text? : Yaml → Option String
  | .scalar _ _ text => some text
  | _ => none

/-- The text of a scalar that may stand for something of a kind other than text: one without
quotes, and a literal one if it has the tag of the kind. -/
def literalText? (kind : String) : Yaml → Option String
  | .scalar .plain _ text => some text
  | .scalar .literal (some tag) text => if tag = standardTag ++ kind then some text else none
  | _ => none

/-- A truth value. -/
def flag? (v : Yaml) : Option Bool := do
  let text ← v.literalText? "bool"
  if ["true", "True", "TRUE"].contains text then some true
  else if ["false", "False", "FALSE"].contains text then some false
  else none

/-- A natural number in digits of a base. -/
def digits? (base : Nat) (cs : List Char) : Option Nat :=
  let extend (n : Nat) (c : Char) : Option Nat := do
    let d ← Hex.value? c
    if d < base then some (base * n + d) else none
  if cs.isEmpty then none else cs.foldlM extend 0

/-- A natural number without a sign: a decimal one without zeros in front, or one in another base,
which its beginning tells. -/
def natural? : List Char → Option Nat
  | '0' :: 'x' :: cs => digits? 16 cs
  | '0' :: 'o' :: cs => digits? 8 cs
  | '0' :: 'b' :: cs => digits? 2 cs
  | cs => if cs.head? = some '0' ∧ cs.length > 1 then none else digits? 10 cs

/-- A word of 64 bits. Zero may have either sign, and other numbers a plus. -/
def word? (v : Yaml) : Option UInt64 := do
  let text ← v.literalText? "int"
  match text.toList with
  | '-' :: cs => if (← natural? cs) = 0 then some 0 else none
  | '+' :: cs => bounded (← natural? cs)
  | cs => bounded (← natural? cs)
where
  /-- The word for a number that is not too great. -/
  bounded (n : Nat) : Option UInt64 := if n ≤ wordMax then some n.toUInt64 else none

/-- Nothing is written, or a word that stands for nothing. -/
def isNull : Yaml → Bool
  | .scalar .plain none text => ["", "~", "null", "Null", "NULL"].contains text
  | .scalar .plain (some tag) text =>
    tag == standardTag ++ "null" && ["~", "null", "Null", "NULL"].contains text
  | _ => false

/-- The members of a mapping by the texts of their keys. Where nothing is written, there are
none. -/
def members? : Yaml → Option (List (String × Yaml))
  | .mapping ms => ms.mapM fun m => m.1.text?.map (·, m.2)
  | .scalar .plain _ "" => some []
  | _ => none

/-- The fields of a record. -/
def fields? (names : List String) (v : Yaml) : Option (List (Option Yaml)) := do
  names.mapM (Document.single? (← v.members?))

/-- Texts by key; of a key given twice the last value counts. -/
def texts? (v : Yaml) : Option (Dict String) := do
  let es ← (← v.members?).mapM fun m => m.2.text?.map (m.1, ·)
  return Dict.ofList es

instance : Document Yaml where
  text? := text?
  flag? := flag?
  word? := word?
  isNull := isNull
  fields? := fields?
  texts? := texts?

end LogQL.Yaml
