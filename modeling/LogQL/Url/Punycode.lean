/-!
# Punycode

A label of a host name that is not ASCII is looked up in a form that is: its ASCII characters in
order, a hyphen, and a run of digits to the base 36 that says where the other characters go.

The digits spell a sequence of numbers, least digit first, each ended by a digit below a threshold
that adapts to the numbers read so far. Every number is a distance in the list of all insertions,
ordered by code point and then by place. `Insertion` is the state between two digits.
-/

namespace LogQL.Url.Punycode

/-- The value of a digit to the base 36. -/
def digit? (c : Char) : Option Nat :=
  if 'a' ≤ c ∧ c ≤ 'z' then some (c.toNat - 97)
  else if 'A' ≤ c ∧ c ≤ 'Z' then some (c.toNat - 65)
  else if '0' ≤ c ∧ c ≤ '9' then some (c.toNat - 22)
  else none

/-- The digit values from which on a number goes on, at a weight and a bias. -/
def threshold (k bias : Nat) : Nat := max 1 (min 26 (k - bias))

/-- Halve a distance by steps until it is small, counting 36 for each step. -/
def shrink (delta k : Nat) : Nat :=
  if h : 455 < delta then shrink (delta / 35) (k + 36) else k + 36 * delta / (delta + 38)
termination_by delta
decreasing_by exact Nat.div_lt_self (by omega) (by omega)

/-- The bias after a number has been read, the first one or a later one. -/
def adapt (delta count : Nat) (isFirst : Bool) : Nat :=
  let delta := if isFirst then delta / 700 else delta / 2
  shrink (delta + delta / count) 0

/-- What has been read so far. -/
structure Insertion where
  /-- The code points, in order. -/
  points : List Nat
  /-- The code point to be inserted next, unless the distance leads to a later one. -/
  point : Nat
  bias : Nat
  /-- The place at which the last number ended. -/
  start : Nat
  /-- The number under way, on top of `start`. -/
  place : Nat
  weight : Nat
  k : Nat
  deriving Repr, Inhabited

/-- A number has ended: insert the code point that it leads to. -/
def Insertion.finish (s : Insertion) : Option Insertion :=
  let count := s.points.length + 1
  let point := s.point + s.place / count
  let place := s.place % count
  if point.isValidChar then
    some {
      points := s.points.take place ++ point :: s.points.drop place
      point
      bias := adapt (s.place - s.start) count (s.start = 0)
      start := place + 1
      place := place + 1
      weight := 1
      k := 36 }
  else none

/-- The code points that the digits lead to. -/
def Insertion.run (s : Insertion) : List Char → Option (List Nat)
  | [] => if s.k = 36 then some s.points else none
  | c :: cs => do
    let d ← digit? c
    let t := threshold s.k s.bias
    let s := { s with place := s.place + d * s.weight }
    if d < t then (← s.finish).run cs
    else run { s with weight := s.weight * (36 - t), k := s.k + 36 } cs

/-- The text that a label stands for, the mark `xn--` in front of it being left out. -/
def decode? (label : List Char) : Option (List Char) := do
  let ext := (label.reverse.takeWhile (· != '-')).reverse
  let basic := (label.take (label.length - ext.length)).dropLast
  let points ← Insertion.run ⟨basic.map Char.toNat, 128, 72, 0, 0, 1, 36⟩ ext
  return points.map Char.ofNat

end LogQL.Url.Punycode
