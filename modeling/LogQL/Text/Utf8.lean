/-!
# Bytes as text

Bytes that come from outside need not be UTF-8. Reading goes from character to character; where
none stands, the longest beginning of one is passed over, at least one byte, and leaves a gap. A
strict reader takes no gaps, and a lenient one puts the replacement character into each.
-/

namespace LogQL.Text.Utf8

/-- The ranges of the bytes that have to follow a first byte, if a character begins with it. -/
def following? (b : UInt8) : Option (List (UInt8 × UInt8)) :=
  let any : UInt8 × UInt8 := (0x80, 0xBF)
  if b < 0x80 then some []
  else if b < 0xC2 then none
  else if b < 0xE0 then some [any]
  else if b = 0xE0 then some [(0xA0, 0xBF), any]
  else if b = 0xED then some [(0x80, 0x9F), any]
  else if b < 0xF0 then some [any, any]
  else if b = 0xF0 then some [(0x90, 0xBF), any, any]
  else if b < 0xF4 then some [any, any, any]
  else if b = 0xF4 then some [(0x80, 0x8F), any, any]
  else none

/-- The part of a first byte that belongs to the number of its character. -/
def leading (b : UInt8) : Nat :=
  if b < 0x80 then b.toNat
  else if b < 0xE0 then b.toNat % 32
  else if b < 0xF0 then b.toNat % 16
  else b.toNat % 8

/-- Take in the bytes that follow a first byte: the number of the character, unless a byte is out
of its range, and the bytes from there on. -/
def gather : (ranges : List (UInt8 × UInt8)) → (number : Nat) → List UInt8 →
    Option Nat × List UInt8
  | [], n, bs => (some n, bs)
  | _ :: _, _, [] => (none, [])
  | (low, high) :: ranges, n, b :: bs =>
    if low ≤ b ∧ b ≤ high then gather ranges (64 * n + b.toNat % 64) bs else (none, b :: bs)

theorem length_gather_le (ranges : List (UInt8 × UInt8)) (n : Nat) (bs : List UInt8) :
    (gather ranges n bs).2.length ≤ bs.length := by
  induction ranges generalizing n bs with
  | nil => simp [gather]
  | cons r ranges ih =>
    rcases r with ⟨low, high⟩
    cases bs with
    | nil => simp [gather]
    | cons b bs =>
      simp only [gather]
      split
      · exact Nat.le_trans (ih _ _) (Nat.le_succ _)
      · exact Nat.le_refl _

/-- The characters that bytes stand for, with gaps where there is none. -/
def characters : List UInt8 → List (Option Char)
  | [] => []
  | b :: bs =>
    match following? b with
    | none => none :: characters bs
    | some ranges =>
      (gather ranges (leading b) bs).1.map Char.ofNat ::
        characters (gather ranges (leading b) bs).2
termination_by bs => bs.length
decreasing_by
  · simp
  · exact Nat.lt_succ_of_le (length_gather_le _ _ _)

/-- The text of bytes that are UTF-8. -/
def read? (bs : List UInt8) : Option String :=
  ((characters bs).mapM id).map String.ofList

/-- The text of any bytes. -/
def readLenient (bs : List UInt8) : String :=
  String.ofList ((characters bs).map (·.getD '\uFFFD'))

end LogQL.Text.Utf8
