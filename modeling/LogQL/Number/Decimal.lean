/-!
# Decimal numerals

Writing a natural number in decimal and reading one back. `ofDigits_digits` says that reading
undoes writing.
-/

namespace LogQL.Decimal

/-- The character of a digit below ten. -/
def digit (n : Nat) : Char := Char.ofNat (48 + n)

/-- The digits of a number, without zeros in front; zero has the one digit `0`. -/
def digits (n : Nat) : List Char :=
  if n < 10 then [digit n] else digits (n / 10) ++ [digit (n % 10)]

/-- The text of a number. -/
def text (n : Nat) : String := String.ofList (digits n)

/-- The number that comes of writing further digits after the number `n`. -/
def extend (n : Nat) (ds : List Char) : Nat := ds.foldl (fun n d => 10 * n + (d.toNat - 48)) n

/-- The number that a run of digits stands for. -/
def ofDigits (ds : List Char) : Nat := extend 0 ds

/-- A number written as one or more digits. -/
def read? (cs : List Char) : Option Nat :=
  if cs.isEmpty || !cs.all Char.isDigit then none else some (ofDigits cs)

/-- A number without a sign, or with a plus. -/
def readUnsigned? : List Char → Option Nat
  | '+' :: cs => read? cs
  | cs => read? cs

/-- A number with or without a sign. -/
def readSigned? : List Char → Option Int
  | '-' :: cs => (read? cs).map fun n => - (n : Int)
  | '+' :: cs => (read? cs).map Int.ofNat
  | cs => (read? cs).map Int.ofNat

/-- The text of a number, with a sign if it is negative. -/
def signedText (n : Int) : String := if n < 0 then "-" ++ text n.natAbs else text n.natAbs

/-- The digits of `n`, with zeros in front up to the given number of them. -/
def padded (width n : Nat) : List Char :=
  let ds := digits n
  List.replicate (width - ds.length) '0' ++ ds

/-! ## Reading undoes writing -/

theorem toNat_digit {n : Nat} (h : n < 10) : (digit n).toNat = 48 + n := by
  have hall : ∀ m ∈ List.range 10, (digit m).toNat = 48 + m := by decide
  exact hall n (List.mem_range.2 h)

theorem isDigit_digit {n : Nat} (h : n < 10) : (digit n).isDigit = true := by
  have hall : ∀ m ∈ List.range 10, (digit m).isDigit = true := by decide
  exact hall n (List.mem_range.2 h)

theorem extend_append (n : Nat) (xs ys : List Char) :
    extend n (xs ++ ys) = extend (extend n xs) ys := by
  simp [extend, List.foldl_append]

theorem ofDigits_digits (n : Nat) : ofDigits (digits n) = n := by
  induction n using digits.induct with
  | case1 n h => rw [digits, if_pos h]; simp [ofDigits, extend, toNat_digit h]
  | case2 n h ih =>
    rw [digits, if_neg h, ofDigits, extend_append]
    rw [ofDigits] at ih
    rw [ih]
    have hlast : (digit (n % 10)).toNat = 48 + n % 10 := toNat_digit (Nat.mod_lt n (by decide))
    simp only [extend, List.foldl_cons, List.foldl_nil, hlast]
    omega

theorem digits_ne_nil (n : Nat) : digits n ≠ [] := by
  rw [digits]
  split <;> simp

theorem isDigit_of_mem_digits {n : Nat} {c : Char} (h : c ∈ digits n) : c.isDigit = true := by
  induction n using digits.induct with
  | case1 n hn =>
    rw [digits, if_pos hn, List.mem_singleton] at h
    exact h ▸ isDigit_digit hn
  | case2 n hn ih =>
    rw [digits, if_neg hn, List.mem_append, List.mem_singleton] at h
    rcases h with h | rfl
    · exact ih h
    · exact isDigit_digit (Nat.mod_lt n (by decide))

end LogQL.Decimal
