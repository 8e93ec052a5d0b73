import LogQL.Json.Token

/-!
# Numbers

The forms of a number, apart from how they are read (`Number.Written`): a sign, digits without a
zero in front, and then a fraction or an exponent or both. The value goes with the form. All digits
make up one natural number, and each place behind the point takes one off the exponent.

A number is read if it has one of the forms (`Number.read?_eq_some_iff`).
-/

namespace LogQL.Json

namespace Number

variable {cs ds places : List Char} {e : Int} {n : Number} {negative : Bool}

/-! ## Forms -/

/-- One or more digits. -/
structure Numeral (ds : List Char) : Prop where
  ne_nil : ds ≠ []
  isDigit : ∀ c ∈ ds, c.isDigit = true

/-- One or more digits, without a zero in front of others. -/
structure Orderly (ds : List Char) : Prop extends Numeral ds where
  zero : ds.head? = some '0' → ds = ['0']

/-- An exponent, with or without a sign. -/
inductive Exponent : Int → List Char → Prop where
  | plain {mark : Char} {ds : List Char} (hmark : mark = 'e' ∨ mark = 'E') (h : Numeral ds) :
      Exponent (Int.ofNat (Decimal.ofDigits ds)) (mark :: ds)
  | plus {mark : Char} {ds : List Char} (hmark : mark = 'e' ∨ mark = 'E') (h : Numeral ds) :
      Exponent (Int.ofNat (Decimal.ofDigits ds)) (mark :: '+' :: ds)
  | minus {mark : Char} {ds : List Char} (hmark : mark = 'e' ∨ mark = 'E') (h : Numeral ds) :
      Exponent (-Int.ofNat (Decimal.ofDigits ds)) (mark :: '-' :: ds)

/-- A number without its sign: digits, and then a fraction or an exponent or both. Each place of the
fraction takes one off the exponent. -/
inductive Unsigned (negative : Bool) : Number → List Char → Prop where
  | whole {ds : List Char} (h : Orderly ds) :
      Unsigned negative (.whole negative (Decimal.ofDigits ds)) ds
  | fraction {ds places : List Char} (h : Orderly ds) (hplaces : Numeral places) :
      Unsigned negative (.decimal negative (Decimal.ofDigits (ds ++ places)) (0 - places.length))
        (ds ++ '.' :: places)
  | exponent {ds tail : List Char} {e : Int} (h : Orderly ds) (he : Exponent e tail) :
      Unsigned negative (.decimal negative (Decimal.ofDigits ds) e) (ds ++ tail)
  | both {ds places tail : List Char} {e : Int} (h : Orderly ds) (hplaces : Numeral places)
      (he : Exponent e tail) :
      Unsigned negative (.decimal negative (Decimal.ofDigits (ds ++ places)) (e - places.length))
        (ds ++ '.' :: (places ++ tail))

/-- A number, with a minus if it is negative. -/
inductive Written : Number → List Char → Prop where
  | positive {n : Number} {word : List Char} (h : Unsigned false n word) : Written n word
  | negative {n : Number} {word : List Char} (h : Unsigned true n word) : Written n ('-' :: word)

/-! ## Reading -/

theorem decimalRead?_eq_some_iff {k : Nat} :
    Decimal.read? ds = some k ↔ Numeral ds ∧ Decimal.ofDigits ds = k := by
  unfold Decimal.read?
  split
  · rename_i hnot
    refine iff_of_false nofun fun ⟨h, _⟩ => ?_
    rcases Bool.or_eq_true_iff.mp hnot with hnil | hdigit
    · exact h.ne_nil (List.isEmpty_iff.mp hnil)
    · rw [List.all_eq_true.mpr h.isDigit] at hdigit
      cases hdigit
  · rename_i hnot
    have hne : ds ≠ [] := by
      rintro rfl
      exact hnot rfl
    have hall : ∀ c ∈ ds, c.isDigit = true := by simpa [hne] using hnot
    rw [Option.some.injEq]
    exact (and_iff_right ⟨hne, hall⟩).symm

theorem Numeral.read? (h : Numeral ds) : Decimal.read? ds = some (Decimal.ofDigits ds) :=
  decimalRead?_eq_some_iff.mpr ⟨h, rfl⟩

/-- Digits do not begin with a sign. -/
theorem Numeral.head_ne (h : Numeral ds) {c : Char} (hc : c.isDigit = false) (rest : List Char) :
    ds ≠ c :: rest := by
  rintro rfl
  rw [h.isDigit c List.mem_cons_self] at hc
  cases hc

/-- Where there is an exponent, it is read. -/
theorem exponent?_eq_some_iff : exponent? cs = some e ↔ cs = [] ∧ e = 0 ∨ Exponent e cs := by
  constructor
  · intro h
    cases cs with
    | nil =>
        cases h
        exact Or.inl ⟨rfl, rfl⟩
    | cons mark rest =>
        rw [exponent?.eq_def] at h
        dsimp only at h
        split at h
        · rename_i hmark
          refine Or.inr ?_
          split at h <;> obtain ⟨k, hk, rfl⟩ := Option.map_eq_some_iff.mp h <;>
            obtain ⟨hds, rfl⟩ := decimalRead?_eq_some_iff.mp hk
          · exact .plus hmark hds
          · exact .minus hmark hds
          · exact .plain hmark hds
        · cases h
  · rintro (⟨rfl, rfl⟩ | h)
    · rfl
    · cases h with
      | plain hmark hds =>
          rw [exponent?.eq_def]
          dsimp only
          rw [if_pos hmark]
          split
          · exact absurd rfl (hds.head_ne (by decide) _)
          · exact absurd rfl (hds.head_ne (by decide) _)
          · rw [hds.read?]
            rfl
      | plus hmark hds =>
          rw [exponent?.eq_def]
          dsimp only
          rw [if_pos hmark]
          exact congrArg (Option.map Int.ofNat) hds.read?
      | minus hmark hds =>
          rw [exponent?.eq_def]
          dsimp only
          rw [if_pos hmark]
          exact congrArg (Option.map fun n => -Int.ofNat n) hds.read?

theorem Exponent.head (h : Exponent e cs) :
    ∃ mark rest, cs = mark :: rest ∧ (mark = 'e' ∨ mark = 'E') := by
  cases h with
  | plain hmark => exact ⟨_, _, rfl, hmark⟩
  | plus hmark => exact ⟨_, _, rfl, hmark⟩
  | minus hmark => exact ⟨_, _, rfl, hmark⟩

/-- The mark of an exponent ends the digits. -/
theorem Exponent.head_isDigit (h : Exponent e cs) : ∀ c ∈ cs.head?, c.isDigit = false := by
  obtain ⟨mark, rest, rfl, hmark⟩ := h.head
  intro c hc
  cases Option.some.inj hc
  rcases hmark with rfl | rfl <;> rfl

theorem exists_digits (cs : List Char) :
    ∃ ds rest, digits cs = (ds, rest) ∧ cs = ds ++ rest ∧ ∀ c ∈ ds, c.isDigit = true :=
  ⟨_, _, rfl, List.takeWhile_append_dropWhile.symm, List.all_eq_true.mp List.all_takeWhile⟩

/-- Digits are split off up to what is no digit. -/
theorem digits_append (hdigits : ∀ c ∈ ds, c.isDigit = true) (rest : List Char)
    (h : ∀ c ∈ rest.head?, c.isDigit = false) : digits (ds ++ rest) = (ds, rest) := by
  have hstop : rest.takeWhile Char.isDigit = [] ∧ rest.dropWhile Char.isDigit = rest := by
    cases rest with
    | nil => exact ⟨rfl, rfl⟩
    | cons c cs =>
        have hc := h c rfl
        exact ⟨List.takeWhile_cons_of_neg (by simp [hc]), List.dropWhile_cons_of_neg (by simp [hc])⟩
  rw [digits, List.takeWhile_append_of_pos hdigits, List.dropWhile_append_of_pos hdigits, hstop.1,
    hstop.2, List.append_nil]

theorem orderly_iff (h : ∀ c ∈ ds, c.isDigit = true) :
    Orderly ds ↔ ¬(ds.isEmpty = true ∨ ds.head? = some '0' ∧ ds.length > 1) := by
  cases ds with
  | nil => exact iff_of_false (fun h => h.ne_nil rfl) (by simp)
  | cons c cs =>
      constructor
      · rintro hds (hnil | ⟨hzero, hlength⟩)
        · cases hnil
        · rw [hds.zero hzero] at hlength
          exact absurd hlength (by decide)
      · intro hnot
        refine ⟨⟨List.cons_ne_nil c cs, h⟩, fun hzero => ?_⟩
        cases Option.some.inj hzero
        cases cs with
        | nil => rfl
        | cons d ds => exact absurd (Or.inr ⟨rfl, by simp⟩) hnot

/-- Behind the point stand the places, and then the exponent, if there is one. -/
theorem unsigned?_fraction (negative : Bool) {tail : List Char} (hds : Orderly ds)
    (hplaces : Numeral places) (htail : ∀ c ∈ tail.head?, c.isDigit = false)
    (he : exponent? tail = some e) :
    unsigned? negative (ds ++ '.' :: (places ++ tail)) =
      some (.decimal negative (Decimal.ofDigits (ds ++ places)) (e - places.length)) := by
  have hpoint := digits_append hds.isDigit ('.' :: (places ++ tail)) (by simp)
  have hsplit := digits_append hplaces.isDigit tail htail
  have hempty : ¬places.isEmpty = true := fun h => hplaces.ne_nil (List.isEmpty_iff.mp h)
  rw [unsigned?, hpoint]
  simp only [if_neg ((orderly_iff hds.isDigit).mp hds), hsplit, if_neg hempty, he]
  rfl

/-- **A number without its sign is read if it is written as one.** -/
theorem unsigned?_eq_some_iff : unsigned? negative cs = some n ↔ Unsigned negative n cs := by
  constructor
  · intro h
    obtain ⟨ds, rest, hdigits, rfl, hds⟩ := exists_digits cs
    rw [unsigned?, hdigits] at h
    dsimp only at h
    split at h
    · cases h
    · rename_i hnot
      have horderly := (orderly_iff hds).mpr hnot
      -- behind the digits there is nothing, a point, or what has to be an exponent
      split at h
      · cases h
        rw [List.append_nil]
        exact .whole horderly
      · rename_i after
        obtain ⟨places, tail, hplaces, rfl, hall⟩ := exists_digits after
        rw [hplaces] at h
        dsimp only at h
        split at h
        · cases h
        · rename_i hne
          have hnumeral : Numeral places := ⟨fun hnil => hne (List.isEmpty_iff.mpr hnil), hall⟩
          obtain ⟨e, he, h⟩ := Option.bind_eq_some_iff.mp h
          cases h
          rcases exponent?_eq_some_iff.mp he with ⟨rfl, rfl⟩ | he
          · rw [List.append_nil]
            exact .fraction horderly hnumeral
          · exact .both horderly hnumeral he
      · rename_i hne _
        obtain ⟨e, he, h⟩ := Option.bind_eq_some_iff.mp h
        cases h
        rcases exponent?_eq_some_iff.mp he with ⟨hnil, -⟩ | he
        · exact absurd hnil hne
        · exact .exponent horderly he
  · intro h
    cases h with
    | whole hds =>
        have hsplit := digits_append hds.isDigit [] (by simp)
        rw [List.append_nil] at hsplit
        rw [unsigned?, hsplit]
        simp only [if_neg ((orderly_iff hds.isDigit).mp hds)]
    | fraction hds hplaces =>
        have hnil : exponent? [] = some 0 := rfl
        have hread := unsigned?_fraction negative hds hplaces (by simp) hnil
        rw [List.append_nil] at hread
        exact hread
    | both hds hplaces he =>
        have hread := exponent?_eq_some_iff.mpr (Or.inr he)
        exact unsigned?_fraction negative hds hplaces he.head_isDigit hread
    | exponent hds he =>
        have hread := exponent?_eq_some_iff.mpr (Or.inr he)
        rw [unsigned?, digits_append hds.isDigit _ he.head_isDigit]
        obtain ⟨mark, rest, rfl, hmark⟩ := he.head
        simp only [if_neg ((orderly_iff hds.isDigit).mp hds)]
        split
        · exact absurd ‹_› (List.cons_ne_nil _ _)
        · obtain ⟨rfl, -⟩ := List.cons.inj ‹_›
          rcases hmark with hmark | hmark <;> cases hmark
        · rw [hread]
          rfl

theorem Unsigned.head_isDigit {negative : Bool} {n : Number} {cs : List Char}
    (h : Unsigned negative n cs) : ∃ c rest, cs = c :: rest ∧ c.isDigit = true := by
  have hhead : ∀ {ds} (tail : List Char), Numeral ds →
      ∃ c rest, ds ++ tail = c :: rest ∧ c.isDigit = true := by
    intro ds tail h
    cases ds with
    | nil => exact absurd rfl h.ne_nil
    | cons c cs => exact ⟨c, cs ++ tail, rfl, h.isDigit c List.mem_cons_self⟩
  cases h with
  | whole h =>
      have hds := hhead [] h.toNumeral
      rwa [List.append_nil] at hds
  | fraction h => exact hhead _ h.toNumeral
  | exponent h => exact hhead _ h.toNumeral
  | both h => exact hhead _ h.toNumeral

/-- **A number is read if it is written as one**, and it is the one it is written for. -/
theorem read?_eq_some_iff : read? cs = some n ↔ Written n cs := by
  constructor
  · intro h
    rw [read?.eq_def] at h
    split at h
    · exact .negative (unsigned?_eq_some_iff.mp h)
    · exact .positive (unsigned?_eq_some_iff.mp h)
  · intro h
    cases h with
    | positive h =>
        obtain ⟨c, rest, rfl, hc⟩ := h.head_isDigit
        rw [read?.eq_def]
        split
        · obtain ⟨rfl, -⟩ := List.cons.inj ‹_›
          cases hc
        · exact unsigned?_eq_some_iff.mpr h
    | negative h => exact unsigned?_eq_some_iff.mpr h

/-! ## Spelling -/

theorem head?_digits {n : Nat} (h : 0 < n) : (Decimal.digits n).head? ≠ some '0' := by
  induction n using Decimal.digits.induct with
  | case1 n hn =>
      have hall : ∀ m ∈ List.range 10, 0 < m → Decimal.digit m ≠ '0' := by decide
      rw [Decimal.digits, if_pos hn]
      simpa using hall n (List.mem_range.mpr hn) h
  | case2 n hn ih =>
      rw [Decimal.digits, if_neg hn, List.head?_append]
      cases hd : Decimal.digits (n / 10) with
      | nil => exact absurd hd (Decimal.digits_ne_nil _)
      | cons c cs =>
          have hhead := ih (by omega)
          rw [hd] at hhead
          exact hhead

theorem orderly_digits (n : Nat) : Orderly (Decimal.digits n) where
  ne_nil := Decimal.digits_ne_nil n
  isDigit _ := Decimal.isDigit_of_mem_digits
  zero h := by
    rcases Nat.eq_zero_or_pos n with rfl | hpos
    · rw [Decimal.digits, if_pos (by decide)]
      rfl
    · exact absurd h (head?_digits hpos)

theorem exponent_spell (e : Int) : Exponent e ('e' :: spellExponent e) := by
  have hdigits := (orderly_digits e.natAbs).toNumeral
  unfold spellExponent
  split
  · have habs : -Int.ofNat e.natAbs = e := by
      show -(e.natAbs : Int) = e
      omega
    have hexponent := Exponent.minus (Or.inl rfl) hdigits
    rwa [Decimal.ofDigits_digits, habs] at hexponent
  · have habs : Int.ofNat e.natAbs = e := by
      show (e.natAbs : Int) = e
      omega
    have hexponent := Exponent.plain (Or.inl rfl) hdigits
    rwa [Decimal.ofDigits_digits, habs] at hexponent

/-- **What is spelled is written for the number.** -/
theorem written_spell (n : Number) : Written n n.spell := by
  have hwhole : ∀ negative k, Unsigned negative (.whole negative k) (Decimal.digits k) := by
    intro negative k
    have hform : Unsigned negative _ _ := .whole (orderly_digits k)
    rwa [Decimal.ofDigits_digits] at hform
  have hdecimal : ∀ negative k e, Unsigned negative (.decimal negative k e)
      (Decimal.digits k ++ 'e' :: spellExponent e) := by
    intro negative k e
    have hform : Unsigned negative _ _ := .exponent (orderly_digits k) (exponent_spell e)
    rwa [Decimal.ofDigits_digits] at hform
  cases n with
  | whole negative k =>
      cases negative with
      | false => exact .positive (hwhole false k)
      | true => exact .negative (hwhole true k)
  | decimal negative k e =>
      cases negative with
      | false => exact .positive (hdecimal false k e)
      | true => exact .negative (hdecimal true k e)

end Number

end LogQL.Json
