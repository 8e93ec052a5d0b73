import LogQL.Number.Hex

/-!
# Percent encoding

A byte that may not stand in a place of an address is written as a percent sign and two
hexadecimal digits, the bytes of a character being those of its UTF-8 form. Decoding leaves a
percent sign that no two digits follow as it is. `decode_encodeBut` says that decoding gives back
the bytes of the text, whatever characters were left alone, as long as the percent sign was not
among them.
-/

namespace LogQL.Url.Percent

/-- How a byte is written. -/
def byte (b : UInt8) : List Char := ['%', Hex.upper (b.toNat / 16), Hex.upper (b.toNat % 16)]

/-- The bytes of a character. -/
def bytes (c : Char) : List UInt8 := String.utf8EncodeChar c

/-- Write every character that is not to be left alone by its bytes. -/
def encodeBut (plain : Char → Bool) (text : List Char) : List Char :=
  text.flatMap fun c => if plain c then [c] else (bytes c).flatMap byte

/-- The characters that stand for themselves wherever they are: ASCII letters, digits, and four
marks. -/
def isUnreserved (c : Char) : Bool :=
  c.isAlphanum || c == '-' || c == '_' || c == '.' || c == '~'

/-- Write a text so that it can be one segment of a path. -/
def encode (text : List Char) : List Char := encodeBut isUnreserved text

/-- The bytes that a text stands for. -/
def decode : List Char → List UInt8
  | [] => []
  | '%' :: a :: b :: rest =>
    match Hex.value? a, Hex.value? b with
    | some m, some n => (16 * m + n).toUInt8 :: decode rest
    | _, _ => bytes '%' ++ decode (a :: b :: rest)
  | c :: rest => bytes c ++ decode rest

/-! ## Decoding undoes encoding -/

theorem decode_byte_append (b : UInt8) (rest : List Char) :
    decode (byte b ++ rest) = b :: decode rest := by
  have hb : b.toNat < 256 := b.toNat_lt
  have hm : b.toNat / 16 < 16 := by omega
  have hn : b.toNat % 16 < 16 := Nat.mod_lt _ (by decide)
  have hsum : 16 * (b.toNat / 16) + b.toNat % 16 = b.toNat := by omega
  simp only [byte, List.cons_append, List.nil_append, decode, Hex.value?_upper hm,
    Hex.value?_upper hn, hsum]
  simp

theorem decode_cons_of_ne {c : Char} (h : c ≠ '%') (rest : List Char) :
    decode (c :: rest) = bytes c ++ decode rest := by
  rw [decode.eq_def]
  split <;> simp_all

theorem decode_flatMap_byte_append (bs : List UInt8) (rest : List Char) :
    decode (bs.flatMap byte ++ rest) = bs ++ decode rest := by
  induction bs with
  | nil => rfl
  | cons b bs ih => rw [List.flatMap_cons, List.append_assoc, decode_byte_append, ih]; rfl

theorem decode_encodeBut {plain : Char → Bool} (h : plain '%' = false) (text : List Char) :
    decode (encodeBut plain text) = text.flatMap bytes := by
  induction text with
  | nil => rfl
  | cons c cs ih =>
    have hcons : encodeBut plain (c :: cs)
        = (if plain c then [c] else (bytes c).flatMap byte) ++ encodeBut plain cs := rfl
    rw [hcons, List.flatMap_cons, ← ih]
    by_cases hc : plain c
    · have hne : c ≠ '%' := fun he => by simp [he, h] at hc
      rw [if_pos hc]
      exact decode_cons_of_ne hne _
    · rw [if_neg hc]
      exact decode_flatMap_byte_append _ _

/-- Decoding an encoded text gives the bytes of the text. -/
theorem decode_encode (text : List Char) : decode (encode text) = text.flatMap bytes :=
  decode_encodeBut (by decide) text

end LogQL.Url.Percent
