import LogQL.Proofs.Text.Encoding

/-!
# The order of texts by their bytes

Texts are compared character by character, and a program that keeps them by their bytes compares byte
by byte. The two are one order (`bytes_lt_iff`), because the form of a character is made for it. The
first byte tells how many follow, more for characters with higher numbers, and each of the others
gives six binary digits of the number, the higher ones first.
-/

namespace LogQL.Text

/-- The last `k` bytes of the form of a character with the number `n`, six binary digits each. -/
def tailBytes : (k n : Nat) → List UInt8
  | 0, _ => []
  | k + 1, n => UInt8.ofNat (n / Nat.pow 64 k % 64 + 128) :: tailBytes k n

theorem ofNat_lt_ofNat {m n : Nat} (h : m < n) (hn : n < 256) : UInt8.ofNat m < UInt8.ofNat n := by
  rw [UInt8.lt_iff_toNat_lt, UInt8.toNat_ofNat', UInt8.toNat_ofNat', Nat.mod_eq_of_lt (by omega),
    Nat.mod_eq_of_lt (by omega)]
  exact h

/-- Bytes with numbers below 256 decide the order unless they are the same. -/
theorem cons_lt_cons {m n : Nat} {xs ys : List UInt8} (hle : m ≤ n) (hn : n < 256)
    (h : m = n → xs < ys) : UInt8.ofNat m :: xs < UInt8.ofNat n :: ys := by
  rcases Nat.lt_or_eq_of_le hle with hlt | heq
  · exact List.cons_lt_cons_iff.mpr (Or.inl (ofNat_lt_ofNat hlt hn))
  · exact List.cons_lt_cons_iff.mpr (Or.inr ⟨congrArg UInt8.ofNat heq, h heq⟩)

/-- Of two numbers that agree in what stands before the last `k` bytes, the bytes of the smaller one
come first. -/
theorem tailBytes_append_lt {k m n : Nat} (h : m < n)
    (hfront : m / Nat.pow 64 k = n / Nat.pow 64 k) (xs ys : List UInt8) :
    tailBytes k m ++ xs < tailBytes k n ++ ys := by
  induction k with
  | zero =>
      have hone : Nat.pow 64 0 = 1 := rfl
      rw [hone, Nat.div_one, Nat.div_one] at hfront
      omega
  | succ k ih =>
      have hle : m / Nat.pow 64 k ≤ n / Nat.pow 64 k := Nat.div_le_div_right (Nat.le_of_lt h)
      have hpow : ∀ i, i / Nat.pow 64 (k + 1) = i / Nat.pow 64 k / 64 := fun i => by
        rw [Nat.div_div_eq_div_mul]
        rfl
      rw [hpow, hpow] at hfront
      -- the six digits of this byte are the last ones of what stands before the rest
      exact cons_lt_cons (by omega) (by omega) fun hsame => ih (by omega)

/-- **The form of a character by its size.** -/
theorem encode_sizes (c : Char) :
    (c.toNat < 0x80 ∧ String.utf8EncodeChar c = UInt8.ofNat c.toNat :: tailBytes 0 c.toNat) ∨
    (0x80 ≤ c.toNat ∧ c.toNat < 0x800 ∧ String.utf8EncodeChar c =
      UInt8.ofNat (c.toNat / 64 + 0xC0) :: tailBytes 1 c.toNat) ∨
    (0x800 ≤ c.toNat ∧ c.toNat < 0x10000 ∧ String.utf8EncodeChar c =
      UInt8.ofNat (c.toNat / 4096 + 0xE0) :: tailBytes 2 c.toNat) ∨
    (0x10000 ≤ c.toNat ∧ c.toNat < 0x110000 ∧ String.utf8EncodeChar c =
      UInt8.ofNat (c.toNat / 262144 + 0xF0) :: tailBytes 3 c.toNat) := by
  have hval : c.val.toNat = c.toNat := rfl
  have hvalid : c.toNat < 0x110000 := by
    rcases c.valid with h | h
    · exact Nat.lt_trans h (by decide)
    · exact h.2
  have hone : c.toNat / 1 = c.toNat := Nat.div_one _
  rw [String.utf8EncodeChar.eq_1, hval]
  split
  · exact Or.inl ⟨by omega, rfl⟩
  split
  · refine Or.inr (Or.inl ⟨by omega, by omega, ?_⟩)
    rw [Nat.mod_eq_of_lt (show c.toNat / 64 < 32 by omega)]
    show _ = [_, UInt8.ofNat (c.toNat / 1 % 64 + 128)]
    rw [hone]
  split
  · refine Or.inr (Or.inr (Or.inl ⟨by omega, by omega, ?_⟩))
    rw [Nat.mod_eq_of_lt (show c.toNat / 4096 < 16 by omega)]
    show _ = [_, UInt8.ofNat (c.toNat / 64 % 64 + 128), UInt8.ofNat (c.toNat / 1 % 64 + 128)]
    rw [hone]
  · refine Or.inr (Or.inr (Or.inr ⟨by omega, hvalid, ?_⟩))
    rw [Nat.mod_eq_of_lt (show c.toNat / 262144 < 8 by omega)]
    show _ = [_, UInt8.ofNat (c.toNat / 4096 % 64 + 128), UInt8.ofNat (c.toNat / 64 % 64 + 128),
      UInt8.ofNat (c.toNat / 1 % 64 + 128)]
    rw [hone]

/-- **The first character that differs decides the order of the bytes**, whatever follows. -/
theorem encode_append_lt {c d : Char} (h : c < d) (xs ys : List UInt8) :
    String.utf8EncodeChar c ++ xs < String.utf8EncodeChar d ++ ys := by
  have hlt : c.toNat < d.toNat := UInt32.lt_iff_toNat_lt.mp h
  rcases encode_sizes c with ⟨hc, he⟩ | ⟨hc, hc', he⟩ | ⟨hc, hc', he⟩ | ⟨hc, hc', he⟩ <;>
    rcases encode_sizes d with ⟨hd, he'⟩ | ⟨hd, hd', he'⟩ | ⟨hd, hd', he'⟩ | ⟨hd, hd', he'⟩ <;>
    rw [he, he', List.cons_append, List.cons_append] <;>
    refine cons_lt_cons (by omega) (by omega) fun hsame => ?_ <;>
    first
    | -- a first byte that is the same tells the same size
      exact tailBytes_append_lt hlt (by simp only [Nat.pow_eq]; omega) xs ys
    | omega

/-- **Texts are ordered as their bytes are.** -/
theorem bytes_lt_iff {xs ys : List Char} : bytes xs < bytes ys ↔ xs < ys := by
  have hmono : ∀ {xs ys : List Char}, xs < ys → bytes xs < bytes ys := by
    intro xs ys h
    induction xs generalizing ys with
    | nil =>
        cases ys with
        | nil => exact absurd h (List.lt_irrefl _)
        | cons d ds =>
            rcases encode_sizes d with ⟨-, he⟩ | ⟨-, -, he⟩ | ⟨-, -, he⟩ | ⟨-, -, he⟩ <;>
              rw [bytes_nil, bytes_cons, he] <;> exact List.nil_lt_cons _ _
    | cons c cs ih =>
        cases ys with
        | nil => exact absurd h (List.not_lt_nil _)
        | cons d ds =>
            rw [bytes_cons, bytes_cons]
            rcases List.cons_lt_cons_iff.mp h with hcd | ⟨rfl, hrest⟩
            · exact encode_append_lt hcd _ _
            · exact List.append_left_lt (ih hrest)
  constructor
  · intro h
    rcases Std.lt_trichotomy xs ys with hlt | rfl | hgt
    · exact hlt
    · exact absurd h (List.lt_irrefl _)
    · exact absurd (hmono hgt) (List.lt_asymm h)
  · exact hmono

theorem lt_iff_bytes_lt {a b : String} : a < b ↔ bytes a.toList < bytes b.toList :=
  String.lt_iff.trans bytes_lt_iff.symm

end LogQL.Text
