import LogQL.Settings.Loose

/-!
# Keys of nested settings

A setting inside a record has a key of several parts, such as `http.timeout_ms`. A part is a name
after a dot, or the index of an item in brackets. A text that is no such key is one name as a
whole.

Putting a value under a key makes the records on the way as needed. A record is put down member by
member, over those that are there already, and names are put down in lower case.
-/

namespace LogQL.Settings

/-- A further part of a key. -/
inductive Part where
  | name (text : String)
  /-- An index; a negative one counts from the end. -/
  | index (n : Int)
  deriving DecidableEq, Repr, Inhabited

/-- A key: a name, and further parts. -/
structure Key where
  head : String
  parts : List Part
  deriving DecidableEq, Repr, Inhabited

namespace Key

/-- A character of a name. -/
def isNameChar (c : Char) : Bool := c.isAlphanum || c == '_' || c == '-' || c == ' '

/-- The parts that a text consists of, at most `fuel` of them. -/
def parts? : (fuel : Nat) → List Char → Option (List Part)
  | _, [] => some []
  | 0, _ => none
  | fuel + 1, '.' :: cs =>
    let name := cs.takeWhile isNameChar
    if name.isEmpty then none
    else do return .name (String.ofList name) :: (← parts? fuel (cs.drop name.length))
  | fuel + 1, '[' :: cs => do
    let digits := cs.takeWhile (· != ']')
    if digits.head? = some '+' then none
    let n ← Decimal.readSigned? digits
    match cs.drop digits.length with
    | ']' :: rest => return .index n :: (← parts? fuel rest)
    | _ => none
  | _ + 1, _ => none

/-- The key that a text is. -/
def ofText (s : String) : Key :=
  let head := s.toList.takeWhile isNameChar
  if head.isEmpty then ⟨s, []⟩
  else
    match parts? s.length (s.toList.drop head.length) with
    | some parts => ⟨String.ofList head, parts⟩
    | none => ⟨s, []⟩

end Key

end Settings

namespace Loose

mutual

/-- Put a value under a name of a table. A table is put there member by member. -/
def merge (name : String) (into : Loose) : Loose → Loose
  | .table ms =>
    let target := (into.members.lookup (Text.lower name)).getD (.table [])
    .table (put (Text.lower name) (mergeAll target ms) into.members)
  | v => .table (put (Text.lower name) v into.members)

/-- Put members into a table. -/
def mergeAll (into : Loose) : List (String × Loose) → Loose
  | [] => into
  | (k, v) :: ms => mergeAll (merge k into v) ms

end

/-- The items of a list, none for any other value. -/
def itemsOf : Loose → List Loose
  | .items vs => vs
  | _ => []

/-- Change the item at an index, in a list that is long enough for it. -/
def adjustItem (f : Loose → Loose) (n : Int) (v : Loose) : Loose :=
  let vs := v.itemsOf
  let n := (if n < 0 then n + vs.length else n).toNat
  let vs := vs ++ List.replicate (n + 1 - vs.length) .absent
  .items (vs.modify n f)

open Settings in
/-- Put a value under the parts of a key. -/
def putAt (new : Loose) : List Part → Loose → Loose
  | [], _ => new
  | [.name name], v => merge name v new
  | .name name :: parts, v =>
    .table (put name (putAt new parts ((v.members.lookup name).getD .absent)) v.members)
  | .index n :: parts, v => adjustItem (putAt new parts) n v

/-- Put a value under a key. -/
def set (root : Loose) (key : Settings.Key) (new : Loose) : Loose :=
  putAt new (.name key.head :: key.parts) root

end Loose

end LogQL
