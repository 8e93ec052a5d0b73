/-!
# Byte offsets into a text

A text is a list of characters, and every position in it is counted in bytes of its UTF-8 form.
An offset that arrives from outside may lie past the end or inside a character. Both are brought
back to the last character boundary at or before the offset: `upTo text n` is the longest
beginning of the text that takes at most `n` bytes, and `clamp text n` is its length.

`slice?` is the strict counterpart: it answers only for two offsets that are boundaries of the
text and in order.
-/

namespace LogQL.Text

/-- The bytes that a text takes in UTF-8. -/
def byteLength : List Char → Nat
  | [] => 0
  | c :: cs => c.utf8Size + byteLength cs

/-- The longest beginning of the text that takes at most `n` bytes. -/
def upTo : List Char → Nat → List Char
  | [], _ => []
  | c :: cs, n => if c.utf8Size ≤ n then c :: upTo cs (n - c.utf8Size) else []

/-- What `upTo` leaves over. -/
def after : List Char → Nat → List Char
  | [], _ => []
  | c :: cs, n => if c.utf8Size ≤ n then after cs (n - c.utf8Size) else c :: cs

/-- The greatest character boundary of the text that is at most `n`. -/
def clamp (text : List Char) (n : Nat) : Nat := byteLength (upTo text n)

/-- The number `n` is the offset at which some character of the text begins, or its end. -/
def IsBoundary (text : List Char) (n : Nat) : Prop := clamp text n = n

instance (text : List Char) (n : Nat) : Decidable (IsBoundary text n) :=
  inferInstanceAs (Decidable (clamp text n = n))

/-- The characters between two boundaries of the text, and nothing for other offsets. -/
def slice? (text : List Char) (start stop : Nat) : Option (List Char) :=
  if start ≤ stop ∧ IsBoundary text start ∧ IsBoundary text stop then
    some (upTo (after text start) (stop - start))
  else none

/-- Each character of the text with the offset at which it begins, the first one at `start`. -/
def located : Nat → List Char → List (Nat × Char)
  | _, [] => []
  | start, c :: cs => (start, c) :: located (start + c.utf8Size) cs

/-! ## Small lemmas -/

theorem upTo_append_after (text : List Char) (n : Nat) : upTo text n ++ after text n = text := by
  induction text generalizing n with
  | nil => rfl
  | cons c cs ih => by_cases h : c.utf8Size ≤ n <;> simp [upTo, after, h, ih]

theorem byteLength_append (xs ys : List Char) :
    byteLength (xs ++ ys) = byteLength xs + byteLength ys := by
  induction xs with
  | nil => simp [byteLength]
  | cons c cs ih => simp [byteLength, ih, Nat.add_assoc]

theorem clamp_le (text : List Char) (n : Nat) : clamp text n ≤ n := by
  induction text generalizing n with
  | nil => exact Nat.zero_le n
  | cons c cs ih =>
    by_cases h : c.utf8Size ≤ n
    · have := ih (n - c.utf8Size)
      simp only [clamp] at this
      simp only [clamp, upTo, h, if_true, byteLength]
      omega
    · simp [clamp, upTo, h, byteLength]

theorem clamp_le_byteLength (text : List Char) (n : Nat) : clamp text n ≤ byteLength text := by
  have h := congrArg byteLength (upTo_append_after text n)
  rw [byteLength_append] at h
  simp only [clamp]
  omega

end LogQL.Text
