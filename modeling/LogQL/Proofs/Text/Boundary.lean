import LogQL.Text.Bytes

/-!
# Boundaries and the beginnings of a text

An offset into a text is a boundary exactly when some beginning of the text takes that many
bytes. So every statement about a boundary is one about a split `pre ++ post`, and cutting,
slicing and locating are read off such a split: `upTo` gives `pre`, `after` gives `post`, and a
character stands at the length of what precedes it.
-/

namespace LogQL.Text

theorem byteLength_eq_zero_iff {text : List Char} : byteLength text = 0 ↔ text = [] := by
  cases text with
  | nil => simp [byteLength]
  | cons c cs =>
      have hpos := c.utf8Size_pos
      simp only [byteLength, reduceCtorEq, iff_false]
      omega

theorem upTo_append (pre post : List Char) (k : Nat) :
    upTo (pre ++ post) (byteLength pre + k) = pre ++ upTo post k := by
  induction pre with
  | nil => simp [byteLength]
  | cons c pre ih =>
      have hle : c.utf8Size ≤ c.utf8Size + byteLength pre + k := by omega
      have hsub : c.utf8Size + byteLength pre + k - c.utf8Size = byteLength pre + k := by omega
      simp only [List.cons_append, byteLength, upTo, if_pos hle, hsub, ih]

theorem after_append (pre post : List Char) (k : Nat) :
    after (pre ++ post) (byteLength pre + k) = after post k := by
  induction pre with
  | nil => simp [byteLength]
  | cons c pre ih =>
      have hle : c.utf8Size ≤ c.utf8Size + byteLength pre + k := by omega
      have hsub : c.utf8Size + byteLength pre + k - c.utf8Size = byteLength pre + k := by omega
      simp only [List.cons_append, byteLength, after, if_pos hle, hsub, ih]

theorem upTo_zero (text : List Char) : upTo text 0 = [] := by
  cases text with
  | nil => rfl
  | cons c cs => rw [upTo, if_neg (Nat.not_le.mpr c.utf8Size_pos)]

theorem after_zero (text : List Char) : after text 0 = text := by
  cases text with
  | nil => rfl
  | cons c cs => rw [after, if_neg (Nat.not_le.mpr c.utf8Size_pos)]

/-- Cutting at the end of a beginning gives that beginning. -/
theorem upTo_byteLength (pre post : List Char) : upTo (pre ++ post) (byteLength pre) = pre := by
  have h := upTo_append pre post 0
  rwa [upTo_zero, List.append_nil, Nat.add_zero] at h

theorem after_byteLength (pre post : List Char) : after (pre ++ post) (byteLength pre) = post := by
  have h := after_append pre post 0
  rwa [after_zero, Nat.add_zero] at h

/-- **The boundaries of a text are the lengths of its beginnings.** -/
theorem isBoundary_iff {text : List Char} {n : Nat} :
    IsBoundary text n ↔ ∃ pre post, text = pre ++ post ∧ byteLength pre = n := by
  constructor
  · intro h
    exact ⟨upTo text n, after text n, (upTo_append_after text n).symm, h⟩
  · rintro ⟨pre, post, rfl, rfl⟩
    show byteLength (upTo _ _) = _
    rw [upTo_byteLength]

theorem isBoundary_clamp (text : List Char) (n : Nat) : IsBoundary text (clamp text n) :=
  isBoundary_iff.mpr ⟨upTo text n, after text n, (upTo_append_after text n).symm, rfl⟩

/-- No boundary lies between an offset and where it is moved back to. -/
theorem le_clamp {text : List Char} {b n : Nat} (h : IsBoundary text b) (hle : b ≤ n) :
    b ≤ clamp text n := by
  obtain ⟨pre, post, rfl, rfl⟩ := isBoundary_iff.mp h
  obtain ⟨k, rfl⟩ := Nat.exists_eq_add_of_le hle
  rw [clamp, upTo_append, byteLength_append]
  omega

/-- Moving an offset back to a boundary does not change the text before it. -/
theorem upTo_clamp (text : List Char) (n : Nat) : upTo text (clamp text n) = upTo text n := by
  have hcut := upTo_byteLength (upTo text n) (after text n)
  rwa [upTo_append_after] at hcut

/-- The slice between two beginnings, the shorter one first. -/
theorem slice?_append (pre mid post : List Char) :
    slice? (pre ++ mid ++ post) (byteLength pre) (byteLength pre + byteLength mid) = some mid := by
  have hstart : IsBoundary (pre ++ mid ++ post) (byteLength pre) :=
    isBoundary_iff.mpr ⟨pre, mid ++ post, List.append_assoc .., rfl⟩
  have hstop : IsBoundary (pre ++ mid ++ post) (byteLength pre + byteLength mid) :=
    isBoundary_iff.mpr ⟨pre ++ mid, post, rfl, byteLength_append ..⟩
  rw [slice?, if_pos ⟨Nat.le_add_right .., hstart, hstop⟩, List.append_assoc, after_byteLength,
    Nat.add_sub_cancel_left, upTo_byteLength]

theorem exists_slice? {text : List Char} {start stop : Nat} (hle : start ≤ stop)
    (hstart : IsBoundary text start) (hstop : IsBoundary text stop) :
    ∃ w, slice? text start stop = some w := ⟨_, if_pos ⟨hle, hstart, hstop⟩⟩

/-- What stands before an offset is the slice up to the boundary it is moved back to. -/
theorem slice?_clamp (text : List Char) (n : Nat) :
    slice? text 0 (clamp text n) = some (upTo text n) := by
  have hslice := slice?_append [] (upTo text n) (after text n)
  rwa [List.nil_append, upTo_append_after, byteLength, Nat.zero_add] at hslice

/-! ## Located characters -/

/-- **A character is located at the length of what stands before it.** -/
theorem mem_located {text : List Char} {start place : Nat} {c : Char} :
    (place, c) ∈ located start text ↔
      ∃ pre post, text = pre ++ c :: post ∧ place = start + byteLength pre := by
  induction text generalizing start with
  | nil => simp [located]
  | cons x xs ih =>
      rw [located, List.mem_cons, ih]
      constructor
      · rintro (h | ⟨pre, post, rfl, rfl⟩)
        · obtain ⟨rfl, rfl⟩ := Prod.mk.inj h
          exact ⟨[], xs, rfl, rfl⟩
        · refine ⟨x :: pre, post, rfl, ?_⟩
          rw [byteLength, Nat.add_assoc]
      · rintro ⟨pre, post, h, rfl⟩
        cases pre with
        | nil =>
            obtain ⟨rfl, rfl⟩ := List.cons.inj h
            exact Or.inl rfl
        | cons y pre =>
            obtain ⟨rfl, rfl⟩ := List.cons.inj h
            exact Or.inr ⟨pre, post, rfl, by rw [byteLength, Nat.add_assoc]⟩

theorem le_of_mem_located {text : List Char} {start : Nat} {m : Nat × Char}
    (h : m ∈ located start text) : start ≤ m.1 := by
  obtain ⟨pre, post, -, hm⟩ := mem_located.mp h
  omega

/-- Characters are located from left to right. -/
theorem located_pairwise (start : Nat) (text : List Char) :
    (located start text).Pairwise fun m m' => m.1 < m'.1 := by
  induction text generalizing start with
  | nil => exact List.Pairwise.nil
  | cons c cs ih =>
      refine List.Pairwise.cons ?_ (ih _)
      intro m hm
      have hle := le_of_mem_located hm
      have hpos := c.utf8Size_pos
      show start < m.1
      omega

theorem map_snd_located (start : Nat) (text : List Char) :
    (located start text).map Prod.snd = text := by
  induction text generalizing start with
  | nil => rfl
  | cons c cs ih => rw [located, List.map_cons, ih]

/-- The slice that one located character takes. -/
theorem slice?_located {text : List Char} {place : Nat} {c : Char}
    (h : (place, c) ∈ located 0 text) : slice? text place (place + c.utf8Size) = some [c] := by
  obtain ⟨pre, post, rfl, rfl⟩ := mem_located.mp h
  have hs := slice?_append pre [c] post
  rw [List.append_assoc] at hs
  simpa [byteLength] using hs

end LogQL.Text
