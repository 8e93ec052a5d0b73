import LogQL.Proofs.Text.Encoding
import LogQL.Proofs.Text.Trailing
import Mathlib.Data.List.Induction

/-!
# Looking backwards through the bytes

The cuts of a text, made as loops over its bytes in which every step is checked. A way back may not
lead below zero, an index may not be out of range, and both ends of a slice must be boundaries:
`none` is a run in which one of these goes wrong. None of them ever does, and what comes out is the
cut that looks at characters.

Two facts carry this. A loop that goes back byte by byte stops at a boundary, since it either looks
for one or passes over bytes below 128 only, which are characters of their own. And one byte behind
a character below 128 is a boundary, so the text behind a line break or a brace can be cut off.
-/

namespace LogQL.Checked

variable {text pre post rest : List Char} {n cursor : Nat} {d : Char}

/-- The text between two offsets, if they are in order and their bytes make them boundaries. -/
def slice (text : List Char) (start stop : Nat) : Option (List Char) :=
  if start ≤ stop ∧ Text.isBoundaryByte (Text.bytes text) start = true ∧
      Text.isBoundaryByte (Text.bytes text) stop = true then
    some (Text.upTo (Text.after text start) (stop - start))
  else none

theorem slice_eq (text : List Char) (start stop : Nat) :
    slice text start stop = Text.slice? text start stop := by
  simp only [slice, Text.slice?, Text.isBoundaryByte_iff]

/-! ## Back to a boundary -/

/-- Go back byte by byte until there is a boundary. There is nothing to go back to from zero. -/
def backUp (bs : List UInt8) : Nat → Option Nat
  | 0 => if Text.isBoundaryByte bs 0 then some 0 else none
  | n + 1 => if Text.isBoundaryByte bs (n + 1) then some (n + 1) else backUp bs n

/-- An offset, moved back into the text and onto a boundary. -/
def clamp (text : List Char) (n : Nat) : Option Nat :=
  backUp (Text.bytes text) (min n (Text.bytes text).length)

theorem backUp_eq (text : List Char) (n : Nat) :
    backUp (Text.bytes text) n = some (Text.clamp text n) := by
  induction n with
  | zero =>
      have hzero : Text.clamp text 0 = 0 := Nat.le_zero.mp (Text.clamp_le text 0)
      have hb : Text.isBoundaryByte (Text.bytes text) 0 = true := rfl
      rw [backUp, if_pos hb, hzero]
  | succ n ih =>
      rw [backUp]
      by_cases hb : Text.isBoundaryByte (Text.bytes text) (n + 1) = true
      · have hclamp : Text.clamp text (n + 1) = n + 1 := Text.isBoundaryByte_iff.mp hb
        rw [if_pos hb, hclamp]
      · -- no boundary here, so the last one is the same as for the offset before
        have hne : Text.clamp text (n + 1) ≠ n + 1 := fun he => hb (Text.isBoundaryByte_iff.mpr he)
        have hle := Text.clamp_le text (n + 1)
        have hdown := Text.le_clamp (Text.isBoundary_clamp text (n + 1)) (n := n) (by omega)
        have hup := Text.le_clamp (Text.isBoundary_clamp text n)
          (Nat.le_succ_of_le (Text.clamp_le text n))
        have hsame : Text.clamp text (n + 1) = Text.clamp text n := Nat.le_antisymm hdown hup
        rw [if_neg hb, hsame]
        exact ih

/-- **Moving an offset back ends at the last boundary**, before it gets below zero. -/
theorem clamp_eq (text : List Char) (n : Nat) : clamp text n = some (Text.clamp text n) := by
  rw [clamp, backUp_eq, Text.length_bytes]
  rcases Nat.le_total n (Text.byteLength text) with hle | hle
  · rw [Nat.min_eq_left hle]
  · have hend : Text.IsBoundary text (Text.byteLength text) :=
      Text.isBoundary_iff.mpr ⟨text, [], (List.append_nil text).symm, rfl⟩
    have hlow := Text.le_clamp hend hle
    have hhigh := Text.clamp_le_byteLength text n
    have hclamp : Text.clamp text (Text.byteLength text) = Text.byteLength text := hend
    rw [Nat.min_eq_right hle, hclamp, Nat.le_antisymm hlow hhigh]

/-! ## Back over a word -/

/-- A byte that continues a LogQL identifier. -/
def isWordByte (b : UInt8) : Bool :=
  (0x30 ≤ b && b ≤ 0x39) || (0x41 ≤ b && b ≤ 0x5A) || (0x61 ≤ b && b ≤ 0x7A) || b == 0x5F

/-- Go back byte by byte for as long as they continue an identifier. -/
def wordStart (bs : List UInt8) : Nat → Option Nat
  | 0 => some 0
  | before + 1 => do
    let b ← bs[before]?
    if isWordByte b then wordStart bs before else some (before + 1)

theorem isWordByte_toUInt8 {c : Char} (h : c.toNat < 0x80) :
    isWordByte c.toNat.toUInt8 = Text.isWord c := by
  have hall : ∀ n < 0x80, isWordByte n.toUInt8 = Text.isWord (Char.ofNat n) := by decide
  rw [hall _ h, Char.ofNat_toNat]

theorem isWordByte_of_not_lt {b : UInt8} (h : ¬b < 0x80) : isWordByte b = false := by
  have hne : b ≠ 0x5F := by
    rintro rfl
    exact h (by decide)
  rw [UInt8.lt_iff_toNat_lt] at h
  simp [isWordByte, UInt8.le_iff_toNat_le, hne] at h ⊢
  omega

theorem isWord_of_not_lt {c : Char} (h : ¬c.toNat < 0x80) : Text.isWord c = false := by
  have hne : c ≠ '_' := by
    rintro rfl
    exact h (by decide)
  delta Text.isWord Char.isAlphanum Char.isAlpha Char.isUpper Char.isLower Char.isDigit
  simp [UInt32.le_iff_toNat_le, hne] at h ⊢
  omega

theorem dropTrailing_concat (p : Char → Bool) (front : List Char) (c : Char) :
    Text.dropTrailing p (front ++ [c]) =
      if p c then Text.dropTrailing p front else front ++ [c] := by
  cases hc : p c <;> simp [Text.dropTrailing, hc]

/-- **The last byte of a character tells whether it continues an identifier.** -/
theorem exists_last (c : Char) :
    ∃ b, (String.utf8EncodeChar c)[c.utf8Size - 1]? = some b ∧ isWordByte b = Text.isWord c := by
  have hpos := c.utf8Size_pos
  have hlen := String.length_utf8EncodeChar c
  by_cases hc : c.toNat < 0x80
  · have hone := Text.encode_of_lt hc
    rw [hone, List.length_singleton] at hlen
    exact ⟨c.toNat.toUInt8, by rw [hone, ← hlen]; rfl, isWordByte_toUInt8 hc⟩
  · have hlast : c.utf8Size - 1 < (String.utf8EncodeChar c).length := by omega
    refine ⟨_, List.getElem?_eq_getElem hlast, ?_⟩
    rw [isWordByte_of_not_lt (Text.not_lt_of_mem_encode hc (List.getElem_mem hlast)),
      isWord_of_not_lt hc]

theorem wordStart_append (pre post : List Char) :
    wordStart (Text.bytes (pre ++ post)) (Text.byteLength pre) =
      some (Text.byteLength (Text.dropTrailing Text.isWord pre)) := by
  induction pre using List.reverseRecOn generalizing post with
  | nil => rfl
  | append_singleton front c ih =>
      have hpos := c.utf8Size_pos
      obtain ⟨b, hb, hword⟩ := exists_last c
      have hlen : Text.byteLength (front ++ [c]) =
          Text.byteLength front + (c.utf8Size - 1) + 1 := by
        have hsum : Text.byteLength (front ++ [c]) = Text.byteLength front + c.utf8Size :=
          Text.byteLength_append ..
        omega
      have hget : (Text.bytes (front ++ [c] ++ post))[Text.byteLength front + (c.utf8Size - 1)]? =
          some b := by
        rw [List.append_assoc, List.singleton_append, Text.getElem?_bytes _ _ (by omega), hb]
      rw [hlen, wordStart, hget, Option.bind_eq_bind, Option.bind_some, hword, dropTrailing_concat]
      split
      · -- a character that continues a word takes one byte
        rename_i hc
        have hsize : c.utf8Size = 1 := by
          by_cases hlt : c.toNat < 0x80
          · rw [← String.length_utf8EncodeChar, Text.encode_of_lt hlt, List.length_singleton]
          · exact absurd hc (by rw [isWord_of_not_lt hlt]; decide)
        rw [hsize, Nat.sub_self, Nat.add_zero, List.append_assoc]
        exact ih _
      · rw [hlen]

/-- **Going back over a word ends where the word begins**, before the text does. -/
theorem wordStart_eq (h : Text.IsBoundary text cursor) :
    wordStart (Text.bytes text) cursor = some (Text.wordStart text cursor) := by
  have hsplit := wordStart_append (Text.upTo text cursor) (Text.after text cursor)
  rw [Text.upTo_append_after] at hsplit
  have hcursor : Text.byteLength (Text.upTo text cursor) = cursor := h
  rwa [hcursor] at hsplit

/-! ## Behind the last occurrence -/

/-- The offset of the last occurrence of a character. -/
def lastOf (d : Char) (text : List Char) : Option Nat :=
  ((Text.located 0 text).filter (·.2 == d)).getLast?.map Prod.fst

/-- The text between the last line break before `cursor` and `cursor`. -/
def lineBefore (text : List Char) (cursor : Nat) : Option (List Char) := do
  let before ← slice text 0 cursor
  match lastOf '\n' before with
  | some newline => slice before (newline + 1) (Text.byteLength before)
  | none => some before

theorem located_append (start : Nat) (xs ys : List Char) :
    Text.located start (xs ++ ys) =
      Text.located start xs ++ Text.located (start + Text.byteLength xs) ys := by
  induction xs generalizing start with
  | nil => rfl
  | cons c xs ih =>
      rw [List.cons_append, Text.located, ih, Text.located, Text.byteLength, List.cons_append,
        Nat.add_assoc]

theorem filter_located_eq_nil (start : Nat) (h : d ∉ text) :
    (Text.located start text).filter (·.2 == d) = [] := by
  refine List.filter_eq_nil_iff.mpr fun m hm he => h ?_
  obtain ⟨place, c⟩ := m
  obtain rfl : c = d := by simpa using he
  obtain ⟨pre, post, rfl, -⟩ := Text.mem_located.mp hm
  simp

theorem lastOf_of_not_mem (h : d ∉ text) : lastOf d text = none := by
  rw [lastOf, filter_located_eq_nil 0 h]
  rfl

theorem lastOf_append (pre : List Char) (h : d ∉ rest) :
    lastOf d (pre ++ d :: rest) = some (Text.byteLength pre) := by
  rw [lastOf, located_append, Text.located, List.filter_append,
    List.filter_cons_of_pos (by simp), filter_located_eq_nil _ h, List.getLast?_concat]
  simp

/-- A character does not occur, or there is a last place where it does. -/
theorem lastOf_cases (d : Char) (text : List Char) :
    (d ∉ text ∧ lastOf d text = none) ∨
    ∃ pre rest, text = pre ++ d :: rest ∧ d ∉ rest ∧
      lastOf d text = some (Text.byteLength pre) := by
  by_cases h : d ∈ text
  · obtain ⟨pre, he, hd⟩ := Text.afterLast_iff.mpr ⟨h, rfl⟩
    have hlast := lastOf_append pre hd
    rw [← he] at hlast
    exact Or.inr ⟨pre, _, he, hd, hlast⟩
  · exact Or.inl ⟨h, lastOf_of_not_mem h⟩

/-- **One byte behind a character that takes one byte, the rest can be cut off.** -/
theorem slice_behind (pre rest : List Char) (hd : d.utf8Size = 1) :
    slice (pre ++ d :: rest) (Text.byteLength pre + 1)
      (Text.byteLength (pre ++ d :: rest)) = some rest := by
  have hs := Text.slice?_append (pre ++ [d]) rest []
  have hlen : Text.byteLength (pre ++ [d]) = Text.byteLength pre + 1 := by
    rw [Text.byteLength_append, Text.byteLength, hd]
    rfl
  have hall : Text.byteLength (pre ++ d :: rest) =
      Text.byteLength pre + 1 + Text.byteLength rest := by
    rw [Text.byteLength_append, Text.byteLength, hd, Nat.add_assoc]
  rw [List.append_nil, List.append_assoc, List.singleton_append, hlen] at hs
  rw [hall, slice_eq]
  exact hs

/-- The beginning of a text up to a boundary can be cut off. -/
theorem slice_upTo (h : Text.IsBoundary text cursor) :
    slice text 0 cursor = some (Text.upTo text cursor) := by
  have hs := Text.slice?_append [] (Text.upTo text cursor) (Text.after text cursor)
  have hcursor : Text.byteLength (Text.upTo text cursor) = cursor := h
  rw [List.nil_append, Text.upTo_append_after, hcursor, Text.byteLength, Nat.zero_add] at hs
  rw [slice_eq]
  exact hs

/-- **The line before a cursor can be cut off.** -/
theorem lineBefore_eq (h : Text.IsBoundary text cursor) :
    lineBefore text cursor = some (Text.lineBefore text cursor) := by
  rw [lineBefore, slice_upTo h, Option.bind_eq_bind, Option.bind_some, Text.lineBefore]
  rcases lastOf_cases '\n' (Text.upTo text cursor) with ⟨hnone, hlast⟩ | ⟨pre, rest, he, hd, hlast⟩
  · rw [hlast]
    exact congrArg some (Text.lastLine_iff.mp (Or.inr ⟨hnone, rfl⟩))
  · have hline : rest = Text.trailing (· != '\n') (Text.upTo text cursor) :=
      Text.lastLine_iff.mp (Or.inl ⟨pre, he, hd⟩)
    rw [hlast, ← hline, he]
    exact slice_behind pre rest rfl

end LogQL.Checked
