import LogQL.Number.Decimal
import LogQL.Text.Alphanumeric
import LogQL.Url.NameChars
import LogQL.Url.Percent
import LogQL.Url.Punycode

/-!
# Hosts

The host of an address is a name or a number. In an address that names a server, a number is told
by its last label: one that reads as a number makes the whole host an IPv4 address, written in one
to four parts to the base 8, 10 or 16. Brackets enclose an IPv6 address.
-/

namespace LogQL.Url

/-- Why a text is no address. -/
inductive Fault where
  | emptyHost
  | idna
  | invalidPort
  | invalidIpv4
  | invalidIpv6
  | invalidDomainCharacter
  | relativeWithoutBase
  | relativeToOpaque
  deriving DecidableEq, Repr, Inhabited

/-- The text of a fault. -/
def Fault.message : Fault → String
  | .emptyHost => "empty host"
  | .idna => "invalid international domain name"
  | .invalidPort => "invalid port number"
  | .invalidIpv4 => "invalid IPv4 address"
  | .invalidIpv6 => "invalid IPv6 address"
  | .invalidDomainCharacter => "invalid domain character"
  | .relativeWithoutBase => "relative URL without a base"
  | .relativeToOpaque => "relative URL with a cannot-be-a-base base"

/-- A host: a name, four bytes, or eight pieces of 16 bits. -/
inductive Host where
  | name (labels : List Char)
  | ipv4 (address : Nat)
  | ipv6 (pieces : List Nat)
  deriving DecidableEq, Repr, Inhabited

/-- The parts of a text between the characters in `p`; always at least one. -/
def splitAt (p : Char → Bool) : List Char → List (List Char)
  | [] => [[]]
  | c :: cs =>
    if p c then [] :: splitAt p cs
    else
      match splitAt p cs with
      | part :: parts => (c :: part) :: parts
      | [] => [[c]]

/-! ## Names -/

namespace Name

/-- ASCII characters that no host name holds. -/
def isForbidden (c : Char) : Bool := c ≤ ' ' || c == '\x7f' || "%#/:<>?@[\\]^|".toList.contains c

/-- The character that a character of a name stands for, if any; none if it is passed over. -/
def fold (c : Char) : Option Char :=
  if c.isUpper then some (Char.ofNat (c.toNat + 32))
  else if c.toNat < 128 then some c
  else if Text.inRanges NameChars.dropped c.toNat then none
  else if c.toNat = 0x3002 then some '.'
  else
    match NameChars.folded.find? fun r => r.1 ≤ c.toNat && c.toNat ≤ r.2.1 with
    | some (first, _, target) => some (Char.ofNat (target + (c.toNat - first)))
    | none => some c

/-- A character that may stand in a name after folding. -/
def isAllowed (c : Char) : Bool := !isForbidden c && !Text.inRanges NameChars.refused c.toNat

/-- A combining mark. -/
def isMark (c : Char) : Bool := Text.inRanges NameChars.marks c.toNat

/-- A character that joins its neighbours without being seen. -/
def isJoiner (c : Char) : Bool := c.toNat == 0x200C || c.toNat == 0x200D

/-- No joiner stands anywhere but after a mark. -/
def joinersFollowMarks : List Char → Bool
  | a :: b :: rest => (!isJoiner b || isMark a) && joinersFollowMarks (b :: rest)
  | _ => true

/-- A label whose characters are in order. -/
def isOrderly (label : List Char) : Bool :=
  match label with
  | [] => true
  | c :: _ => label.all isAllowed && !isMark c && !isJoiner c && joinersFollowMarks label

/-- The text of a label. One that begins with `xn--` is written in Punycode, and stands for a label
that has to be written so and is folded already. -/
def label? (label : List Char) : Option (List Char) :=
  match label with
  | 'x' :: 'n' :: '-' :: '-' :: rest => do
    let text ← Punycode.decode? rest
    if text.all (·.toNat < 128) || text.any (fun c => fold c != some c) || !isOrderly text then none
    else some text
  | _ => if isOrderly label then some label else none

/-- The name that some bytes spell. -/
def ofBytes? (bs : List UInt8) : Option (List Char) := do
  let text ← String.fromUTF8? ⟨bs.toArray⟩
  let parts ← (splitAt (· == '.') (text.toList.filterMap fold)).mapM label?
  return List.intercalate ['.'] parts

end Name

/-! ## Numbers -/

namespace Ipv4

/-- The value of a digit below the base. -/
def digit? (base : Nat) (c : Char) : Option Nat :=
  (Hex.value? c).bind fun d => if d < base then some d else none

/-- The number that digits to a base stand for. -/
def ofDigits? (base : Nat) (ds : List Char) : Option Nat :=
  ds.foldlM (fun n c => (digit? base c).map (base * n + ·)) 0

/-- The number that a part stands for: to the base 16 after `0x`, to the base 8 after another
zero. -/
def part? : List Char → Option Nat
  | [] => none
  | '0' :: 'x' :: ds => ofDigits? 16 ds
  | '0' :: 'X' :: ds => ofDigits? 16 ds
  | '0' :: d :: ds => ofDigits? 8 (d :: ds)
  | ds => ofDigits? 10 ds

/-- The parts of a name, without an empty last one. -/
def parts (name : List Char) : List (List Char) :=
  let ps := splitAt (· == '.') name
  if ps.length > 1 ∧ ps.getLast? = some [] then ps.dropLast else ps

/-- Whether the last part of a name is a number. -/
def endsInNumber (name : List Char) : Bool :=
  match (parts name).getLast? with
  | some p => (!p.isEmpty && p.all Char.isDigit) || (part? p).isSome
  | none => false

/-- The address that a name spells: up to three parts of one byte, and a last one for the rest. -/
def read? (name : List Char) : Option Nat := do
  let ns ← (parts name).mapM part?
  let last ← ns.getLast?
  let firsts := ns.dropLast
  if ns.length > 4 || firsts.any (· > 255) || last ≥ Nat.pow 256 (4 - firsts.length) then none
  else some (firsts.zipIdx.foldl (fun a p => a + p.1 * Nat.pow 256 (3 - p.2)) last)

end Ipv4

namespace Ipv6

/-- A piece of 16 bits, in one to four digits to the base 16. -/
def piece? (ds : List Char) : Option Nat :=
  if ds.isEmpty || ds.length > 4 then none else Ipv4.ofDigits? 16 ds

/-- A byte in decimal, without zeros in front. -/
def byte? (ds : List Char) : Option Nat :=
  match ds with
  | '0' :: _ :: _ => none
  | _ => (Decimal.read? ds).bind fun n => if n < 256 then some n else none

/-- The pieces that colons separate; the last one may be an IPv4 address, which is two pieces. -/
def pieces? (text : List Char) : Option (List Nat) :=
  if text.isEmpty then some []
  else do
    let parts := splitAt (· == ':') text
    let firsts ← parts.dropLast.mapM piece?
    let last ← parts.getLast?
    if last.contains '.' then
      match ← (splitAt (· == '.') last).mapM byte? with
      | [a, b, c, d] => some (firsts ++ [256 * a + b, 256 * c + d])
      | _ => none
    else return firsts ++ [← piece? last]

/-- Split at the first pair of colons. -/
def splitGap : List Char → Option (List Char × List Char)
  | ':' :: ':' :: rest => some ([], rest)
  | c :: cs => (splitGap cs).map fun p => (c :: p.1, p.2)
  | [] => none

/-- The address that a text spells: eight pieces, or fewer with a gap that stands for at least one
zero. -/
def read? (text : List Char) : Option (List Nat) := do
  match splitGap text with
  | none =>
    let ps ← pieces? text
    if ps.length = 8 then some ps else none
  | some (before, after) =>
    let xs ← pieces? before
    let ys ← pieces? after
    if before.contains '.' || xs.length + ys.length > 7 then none
    else some (xs ++ List.replicate (8 - xs.length - ys.length) 0 ++ ys)

end Ipv6

/-! ## Any host -/

namespace Host

/-- The address between brackets. -/
def bracketed? (text : List Char) : Except Fault Host :=
  match text.getLast?, Ipv6.read? text.dropLast with
  | some ']', some pieces => .ok (.ipv6 pieces)
  | _, _ => .error .invalidIpv6

/-- The host of an address that names a server. -/
def ofServer (text : List Char) : Except Fault Host :=
  match text with
  | '[' :: rest => bracketed? rest
  | _ =>
    match Name.ofBytes? (Percent.decode text) with
    | none => .error .idna
    | some [] => .error .emptyHost
    | some labels =>
      if Ipv4.endsInNumber labels then
        match Ipv4.read? labels with
        | some address => .ok (.ipv4 address)
        | none => .error .invalidIpv4
      else .ok (.name labels)

/-- A control character, or one outside ASCII. -/
def isControl (c : Char) : Bool := c < ' ' || '~' < c

/-- The host of any other address: its characters stand for themselves. -/
def ofOpaque (text : List Char) : Except Fault Host :=
  match text with
  | '[' :: rest => bracketed? rest
  | _ =>
    if text.any fun c => "\x00\t\n\r #/:<>?@[\\]^|".toList.contains c then
      .error .invalidDomainCharacter
    else .ok (.name (Percent.encodeBut (fun c => !isControl c) text))

end Host

end LogQL.Url
