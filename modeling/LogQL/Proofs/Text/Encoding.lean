import LogQL.Proofs.Text.Boundary
import LogQL.Text.Words

/-!
# The bytes of a text

Offsets count bytes, and the bytes decide what is a boundary: every byte but those that go on with a
character (`continues`). That this is the same as being the length of a beginning
(`isBoundaryByte_iff`) rests on the form of a single character (`encode_cases`). It is one byte
below 128, or else a byte of at least 192 with bytes from 128 to 191 behind it.

For the same reason a byte below 128 is a character of its own wherever it stands, so a scan of the
bytes that looks for such ones only finds the characters, at their offsets (`filter_byteChars`).
-/

namespace LogQL.Text

/-- The UTF-8 form of a text. -/
def bytes (text : List Char) : List UInt8 := text.flatMap String.utf8EncodeChar

/-- A byte that goes on with a character. -/
def continues (b : UInt8) : Bool := 0x80 ≤ b && b < 0xC0

/-- Whether a character begins at an offset, or the bytes end there. -/
def isBoundaryByte (bs : List UInt8) (n : Nat) : Bool :=
  n == 0 || n == bs.length || bs[n]?.any fun b => !continues b

@[simp] theorem bytes_nil : bytes [] = [] := rfl

theorem bytes_cons (c : Char) (cs : List Char) :
    bytes (c :: cs) = String.utf8EncodeChar c ++ bytes cs := rfl

@[simp] theorem bytes_append (xs ys : List Char) : bytes (xs ++ ys) = bytes xs ++ bytes ys :=
  List.flatMap_append

@[simp] theorem length_bytes (text : List Char) : (bytes text).length = byteLength text := by
  induction text with
  | nil => rfl
  | cons c cs ih =>
      rw [bytes_cons, List.length_append, String.length_utf8EncodeChar, ih, byteLength]

/-- The bytes of a character stand behind those of the characters before it. -/
theorem getElem?_bytes (pre post : List Char) {c : Char} {k : Nat} (hk : k < c.utf8Size) :
    (bytes (pre ++ c :: post))[byteLength pre + k]? = (String.utf8EncodeChar c)[k]? := by
  have hlen := String.length_utf8EncodeChar c
  rw [bytes_append, bytes_cons, ← length_bytes, List.getElem?_append_right (Nat.le_add_right ..),
    Nat.add_sub_cancel_left, List.getElem?_append_left (by omega)]

/-! ## One character -/

theorem continues_iff {b : UInt8} : continues b = true ↔ 0x80 ≤ b.toNat ∧ b.toNat < 0xC0 := by
  simp [continues, UInt8.le_iff_toNat_le, UInt8.lt_iff_toNat_lt]

theorem continues_ofNat (n : Nat) : continues (UInt8.ofNat (n % 64 + 128)) = true := by
  rw [continues_iff, UInt8.toNat_ofNat', Nat.mod_eq_of_lt (by omega)]
  omega

theorem le_toNat_ofNat {n : Nat} (hlow : 0xC0 ≤ n) (hhigh : n < 256) :
    0xC0 ≤ (UInt8.ofNat n).toNat := by
  rwa [UInt8.toNat_ofNat', Nat.mod_eq_of_lt hhigh]

/-- **The form of a character**: one byte below 128, or a byte that begins it and others that go
on with it. -/
theorem encode_cases (c : Char) :
    (c.toNat < 0x80 ∧ String.utf8EncodeChar c = [c.toNat.toUInt8]) ∨
    (0x80 ≤ c.toNat ∧ ∃ b rest, String.utf8EncodeChar c = b :: rest ∧ 0xC0 ≤ b.toNat ∧
      rest ≠ [] ∧ ∀ x ∈ rest, continues x = true) := by
  have hval : c.val.toNat = c.toNat := rfl
  rw [String.utf8EncodeChar.eq_1, hval]
  split
  · exact Or.inl ⟨by omega, rfl⟩
  refine Or.inr ⟨by omega, ?_⟩
  have hlast := continues_ofNat c.toNat
  have hsecond := continues_ofNat (c.toNat / 64)
  have hthird := continues_ofNat (c.toNat / 4096)
  split
  · refine ⟨_, _, rfl, le_toNat_ofNat (by omega) (by omega), List.cons_ne_nil _ _, ?_⟩
    simp only [List.forall_mem_cons]
    exact ⟨hlast, by simp⟩
  split
  · refine ⟨_, _, rfl, le_toNat_ofNat (by omega) (by omega), List.cons_ne_nil _ _, ?_⟩
    simp only [List.forall_mem_cons]
    exact ⟨hsecond, hlast, by simp⟩
  · refine ⟨_, _, rfl, le_toNat_ofNat (by omega) (by omega), List.cons_ne_nil _ _, ?_⟩
    simp only [List.forall_mem_cons]
    exact ⟨hthird, hsecond, hlast, by simp⟩

/-! ## Boundaries -/

/-- No text begins with a byte that goes on with a character. -/
theorem head_bytes {text : List Char} {b : UInt8} (h : (bytes text)[0]? = some b) :
    continues b = false := by
  cases text with
  | nil => exact absurd h (by simp)
  | cons c cs =>
      rw [bytes_cons] at h
      rcases encode_cases c with ⟨hlt, he⟩ | ⟨-, b', rest, he, hb', -⟩
      · rw [he] at h
        obtain rfl := Option.some.inj h
        rw [Bool.eq_false_iff, ne_eq, continues_iff]
        simp only [Nat.toUInt8_eq, UInt8.toNat_ofNat']
        omega
      · rw [he] at h
        obtain rfl := Option.some.inj h
        rw [Bool.eq_false_iff, ne_eq, continues_iff]
        omega

/-- Inside a character there is no boundary. -/
theorem getElem?_encode {c : Char} {n : Nat} (hpos : 0 < n) (hlt : n < c.utf8Size) :
    ∃ b, (String.utf8EncodeChar c)[n]? = some b ∧ continues b = true := by
  rw [← String.length_utf8EncodeChar] at hlt
  rcases encode_cases c with ⟨-, he⟩ | ⟨-, b, rest, he, -, -, hrest⟩
  · rw [he] at hlt
    exact absurd hlt (by simp; omega)
  · obtain ⟨m, rfl⟩ := Nat.exists_eq_succ_of_ne_zero (Nat.ne_of_gt hpos)
    rw [he] at hlt ⊢
    have hm : m < rest.length := by simpa using hlt
    exact ⟨rest[m], by simp [hm], hrest _ (List.getElem_mem hm)⟩

/-- Behind a character the boundaries are those of the rest. -/
theorem isBoundaryByte_add (c : Char) (cs : List Char) (n : Nat) :
    isBoundaryByte (bytes (c :: cs)) (c.utf8Size + n) = isBoundaryByte (bytes cs) n := by
  have hpos := c.utf8Size_pos
  have hget : (bytes (c :: cs))[c.utf8Size + n]? = (bytes cs)[n]? := by
    have hlen := String.length_utf8EncodeChar c
    rw [bytes_cons, List.getElem?_append_right (by omega), hlen, Nat.add_sub_cancel_left]
  have hend : (c.utf8Size + n == (bytes (c :: cs)).length) = (n == (bytes cs).length) := by
    rw [length_bytes, length_bytes, byteLength, Bool.eq_iff_iff, beq_iff_eq, beq_iff_eq]
    omega
  have hstart : (c.utf8Size + n == 0) = false := by
    rw [Bool.eq_false_iff, ne_eq, beq_iff_eq]
    omega
  rw [isBoundaryByte, isBoundaryByte, hget, hend, hstart]
  cases n with
  | succ n => rfl
  | zero =>
      -- the rest is empty, or its first byte begins a character
      cases hrest : (bytes cs)[0]? with
      | none =>
          have hnil : (bytes cs).length = 0 := Nat.le_zero.mp (List.getElem?_eq_none_iff.mp hrest)
          rw [hnil]
          rfl
      | some b => simp [head_bytes hrest]

/-- **An offset is a boundary just when its byte says so.** -/
theorem isBoundaryByte_iff {text : List Char} {n : Nat} :
    isBoundaryByte (bytes text) n = true ↔ IsBoundary text n := by
  induction text generalizing n with
  | nil => cases n <;> simp [isBoundaryByte, IsBoundary, clamp, upTo, byteLength]
  | cons c cs ih =>
      rw [IsBoundary, clamp, upTo]
      by_cases hle : c.utf8Size ≤ n
      · obtain ⟨m, rfl⟩ := Nat.exists_eq_add_of_le hle
        rw [isBoundaryByte_add, ih, if_pos hle, Nat.add_sub_cancel_left, byteLength, IsBoundary,
          clamp]
        omega
      · rw [if_neg hle, byteLength]
        cases n with
        | zero => simp [isBoundaryByte]
        | succ n =>
            obtain ⟨b, hb, hcont⟩ := getElem?_encode (Nat.succ_pos n) (Nat.not_le.mp hle)
            have hlen := String.length_utf8EncodeChar c
            have hget : (bytes (c :: cs))[n + 1]? = some b := by
              rw [bytes_cons, List.getElem?_append_left (by omega), hb]
            have hend : n + 1 ≠ byteLength (c :: cs) := by
              rw [byteLength]
              omega
            simp [isBoundaryByte, hget, hcont, hend]

/-! ## Bytes below 128 -/

theorem encode_of_lt {c : Char} (h : c.toNat < 0x80) :
    String.utf8EncodeChar c = [c.toNat.toUInt8] := by
  rcases encode_cases c with ⟨-, he⟩ | ⟨hle, -⟩
  · exact he
  · exact absurd h (by omega)

/-- A character from 128 on has no byte below 128. -/
theorem not_lt_of_mem_encode {c : Char} {b : UInt8} (hc : ¬c.toNat < 0x80)
    (h : b ∈ String.utf8EncodeChar c) : ¬b < 0x80 := by
  rw [UInt8.lt_iff_toNat_lt]
  show ¬b.toNat < 0x80
  rcases encode_cases c with ⟨hlt, -⟩ | ⟨-, first, rest, he, hfirst, -, hrest⟩
  · exact absurd hlt hc
  · rw [he] at h
    rcases List.mem_cons.mp h with rfl | h
    · omega
    · have := (continues_iff.mp (hrest b h)).1
      omega

/-- **A character below 128 is counted by its byte.** -/
theorem count_bytes {d : Char} (hd : d.toNat < 0x80) (text : List Char) :
    (bytes text).count d.toNat.toUInt8 = text.count d := by
  induction text with
  | nil => rfl
  | cons c cs ih =>
      rw [bytes_cons, List.count_append, ih, List.count_cons, Nat.add_comm]
      congr 1
      by_cases hc : c.toNat < 0x80
      · -- different characters below 128 have different bytes
        have hsame : c.toNat.toUInt8 = d.toNat.toUInt8 ↔ c = d := by
          rw [← UInt8.toNat_inj, Nat.toUInt8_eq, Nat.toUInt8_eq, UInt8.toNat_ofNat',
            UInt8.toNat_ofNat', Nat.mod_eq_of_lt (by omega), Nat.mod_eq_of_lt (by omega),
            Char.toNat_inj]
        simp [encode_of_lt hc, List.count_singleton, hsame]
      · have hne : c ≠ d := by
          rintro rfl
          exact hc hd
        have hnone : d.toNat.toUInt8 ∉ String.utf8EncodeChar c := by
          intro hmem
          refine not_lt_of_mem_encode hc hmem (UInt8.lt_iff_toNat_lt.mpr ?_)
          rw [Nat.toUInt8_eq, UInt8.toNat_ofNat', Nat.mod_eq_of_lt (by omega)]
          exact hd
        simp [List.count_eq_zero_of_not_mem hnone, hne]

theorem toNat_ofNat {n : Nat} (h : n.isValidChar) : (Char.ofNat n).toNat = n := by
  rw [Char.ofNat, dif_pos h]
  rfl

theorem toNat_ofNat_byte (b : UInt8) : (Char.ofNat b.toNat).toNat = b.toNat := by
  have hlt := b.toNat_lt
  exact toNat_ofNat (Or.inl (by omega))

/-- Each byte of a text with its offset, as the character of its number. -/
def byteChars (start : Nat) (text : List Char) : List (Nat × Char) :=
  ((bytes text).zipIdx start).map fun m => (m.2, Char.ofNat m.1.toNat)

/-- **A scan of the bytes for characters below 128 finds those characters**, in their places. -/
theorem filter_byteChars {p : Char → Bool} (hp : ∀ c, p c = true → c.toNat < 0x80) (start : Nat)
    (text : List Char) :
    (byteChars start text).filter (p ·.2) = (located start text).filter (p ·.2) := by
  induction text generalizing start with
  | nil => rfl
  | cons c cs ih =>
      have hsplit : byteChars start (c :: cs) =
          (((String.utf8EncodeChar c).zipIdx start).map fun m => (m.2, Char.ofNat m.1.toNat)) ++
            byteChars (start + c.utf8Size) cs := by
        rw [byteChars, bytes_cons, List.zipIdx_append, List.map_append,
          String.length_utf8EncodeChar, byteChars]
      rw [hsplit, List.filter_append, ih, located]
      by_cases hc : c.toNat < 0x80
      · have hsame : Char.ofNat c.toNat.toUInt8.toNat = c := by
          rw [Nat.toUInt8_eq, UInt8.toNat_ofNat', Nat.mod_eq_of_lt (by omega), Char.ofNat_toNat]
        rw [encode_of_lt hc, List.zipIdx_singleton, List.map_singleton, hsame]
        exact List.filter_append [(start, c)] (located (start + c.utf8Size) cs) |>.symm
      · -- neither the character nor any of its bytes is below 128
        have hnone : (((String.utf8EncodeChar c).zipIdx start).map fun m =>
            (m.2, Char.ofNat m.1.toNat)).filter (p ·.2) = [] := by
          refine List.filter_eq_nil_iff.mpr fun m hm hpm => ?_
          obtain ⟨⟨b, i⟩, hb, rfl⟩ := List.mem_map.mp hm
          have hlow := hp _ hpm
          have hbyte := not_lt_of_mem_encode hc (List.fst_mem_of_mem_zipIdx hb)
          rw [toNat_ofNat_byte] at hlow
          exact hbyte (UInt8.lt_iff_toNat_lt.mpr hlow)
        have hnot : ¬p (start, c).2 = true := fun hpc => hc (hp c hpc)
        rw [hnone, List.nil_append, List.filter_cons, if_neg hnot]

end LogQL.Text
