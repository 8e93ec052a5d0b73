/-!
# Hexadecimal digits
-/

namespace LogQL.Hex

/-- The value of a hexadecimal digit, in either case. -/
def value? (c : Char) : Option Nat :=
  if '0' ≤ c ∧ c ≤ '9' then some (c.toNat - 48)
  else if 'A' ≤ c ∧ c ≤ 'F' then some (c.toNat - 55)
  else if 'a' ≤ c ∧ c ≤ 'f' then some (c.toNat - 87)
  else none

/-- The digit for a number below sixteen, in upper case. -/
def upper (n : Nat) : Char := Char.ofNat (if n < 10 then 48 + n else 55 + n)

/-- The digit for a number below sixteen, in lower case. -/
def lower (n : Nat) : Char := Char.ofNat (if n < 10 then 48 + n else 87 + n)

theorem value?_upper {n : Nat} (h : n < 16) : value? (upper n) = some n := by
  have hall : ∀ m ∈ List.range 16, value? (upper m) = some m := by decide
  exact hall n (List.mem_range.2 h)

theorem value?_lower {n : Nat} (h : n < 16) : value? (lower n) = some n := by
  have hall : ∀ m ∈ List.range 16, value? (lower m) = some m := by decide
  exact hall n (List.mem_range.2 h)

end LogQL.Hex
