import LogQL.Number.Double
import LogQL.Proofs.Json.Numbers
import LogQL.Proofs.Text.LetterCase

/-!
# Numerals

The forms of the texts that stand for a number. A whole number is digits, with or without a sign
(`Decimal.Spelled`). A double may have a point and an exponent as well, and it may be a word
(`Double.Spelled`). The value goes with the form. These forms are freer than those of JSON: zeros may
stand in front, and the point first or last.

So many texts stand for one number, and only one of them is written for it. A whole number is
written without a plus, without zeros in front of other digits and without a minus before zero
(`Decimal.Written`). A double is never written with a plus or an exponent (`Double.Shown`).
-/

namespace LogQL

open Json.Number (Numeral Orderly Exponent)

/-! ## Whole numbers -/

namespace Decimal

variable {cs ds : List Char} {n : Int}

/-- A whole number, with or without a sign. -/
inductive Spelled : Int → List Char → Prop where
  | plain {ds : List Char} (h : Numeral ds) : Spelled (Int.ofNat (ofDigits ds)) ds
  | plus {ds : List Char} (h : Numeral ds) : Spelled (Int.ofNat (ofDigits ds)) ('+' :: ds)
  | minus {ds : List Char} (h : Numeral ds) : Spelled (-Int.ofNat (ofDigits ds)) ('-' :: ds)

/-- The text of a whole number: no plus, no zeros in front, and no minus before zero. -/
inductive Written : Int → List Char → Prop where
  | natural {ds : List Char} (h : Orderly ds) : Written (Int.ofNat (ofDigits ds)) ds
  | negative {ds : List Char} (h : Orderly ds) (hzero : ds ≠ ['0']) :
      Written (-Int.ofNat (ofDigits ds)) ('-' :: ds)

theorem Written.spelled (h : Written n cs) : Spelled n cs := by
  cases h with
  | natural h => exact .plain h.toNumeral
  | negative h _ => exact .minus h.toNumeral

/-- **A whole number is read from a text if the text stands for it.** -/
theorem readSigned?_eq_some_iff : readSigned? cs = some n ↔ Spelled n cs := by
  constructor
  · intro h
    unfold readSigned? at h
    split at h
    · obtain ⟨k, hk, rfl⟩ := Option.map_eq_some_iff.mp h
      obtain ⟨m, hm, hk⟩ := Option.bind_eq_some_iff.mp hk
      obtain ⟨hds, rfl⟩ := Json.Number.decimalRead?_eq_some_iff.mp hm
      cases hk
      exact .minus hds
    · obtain ⟨k, hk, rfl⟩ := Option.map_eq_some_iff.mp h
      obtain ⟨hds, rfl⟩ := Json.Number.decimalRead?_eq_some_iff.mp hk
      exact .plus hds
    · obtain ⟨k, hk, rfl⟩ := Option.map_eq_some_iff.mp h
      obtain ⟨hds, rfl⟩ := Json.Number.decimalRead?_eq_some_iff.mp hk
      exact .plain hds
  · intro h
    cases h with
    | plain hds =>
        unfold readSigned?
        split
        · exact absurd rfl (hds.head_ne (by decide) _)
        · exact absurd rfl (hds.head_ne (by decide) _)
        · rw [hds.read?]
          rfl
    | plus hds => rw [readSigned?, hds.read?, Option.map_some]
    | minus hds =>
        rw [readSigned?, hds.read?]
        rfl

theorem digit_toNat {c : Char} (h : c.isDigit = true) : digit (c.toNat - 48) = c := by
  have hbounds := Text.isDigit_iff.mp h
  have hcode : 48 + (c.toNat - 48) = c.toNat := by omega
  rw [digit, hcode, Char.ofNat_toNat]

/-- Further digits stand behind those of a number that is not zero. -/
theorem digits_extend {n : Nat} (hn : 0 < n) (h : ∀ c ∈ ds, c.isDigit = true) :
    digits (extend n ds) = digits n ++ ds := by
  induction ds generalizing n with
  | nil => exact (List.append_nil _).symm
  | cons c ds ih =>
      have hc := h c List.mem_cons_self
      have hbounds := Text.isDigit_iff.mp hc
      have hstep : digits (10 * n + (c.toNat - 48)) = digits n ++ [c] := by
        have hdiv : (10 * n + (c.toNat - 48)) / 10 = n := by omega
        have hmod : (10 * n + (c.toNat - 48)) % 10 = c.toNat - 48 := by omega
        rw [digits, if_neg (by omega), hdiv, hmod, digit_toNat hc]
      have hrest : digits (extend (10 * n + (c.toNat - 48)) ds) = _ :=
        ih (by omega) fun d hd => h d (List.mem_cons_of_mem c hd)
      rw [hstep, List.append_assoc] at hrest
      exact hrest

/-- **Writing undoes reading** where there are no zeros in front. -/
theorem digits_ofDigits (h : Orderly ds) : digits (ofDigits ds) = ds := by
  cases ds with
  | nil => exact absurd rfl h.ne_nil
  | cons c rest =>
      by_cases hzero : c = '0'
      · subst hzero
        rw [h.zero rfl, ofDigits, digits]
        rfl
      · have hc := h.isDigit c List.mem_cons_self
        have hbounds := Text.isDigit_iff.mp hc
        have hne : c.toNat ≠ 48 := fun hcode => hzero (Char.toNat_inj.mp hcode)
        have hfirst : extend 0 (c :: rest) = extend (c.toNat - 48) rest := by
          simp [extend]
        rw [ofDigits, hfirst, digits_extend (by omega)
          fun d hd => h.isDigit d (List.mem_cons_of_mem c hd), digits, if_pos (by omega),
          digit_toNat hc]
        rfl

theorem ofDigits_eq_zero_iff (h : Orderly ds) : ofDigits ds = 0 ↔ ds = ['0'] := by
  constructor
  · intro hzero
    rw [← digits_ofDigits h, hzero, digits]
    rfl
  · rintro rfl
    rfl

theorem toList_text (n : Nat) : (text n).toList = digits n := String.toList_ofList

theorem toList_signedText (n : Int) :
    (signedText n).toList = if n < 0 then '-' :: digits n.natAbs else digits n.natAbs := by
  unfold signedText
  split
  · rw [String.toList_append, toList_text]
    rfl
  · exact toList_text _

theorem written_signedText (n : Int) : Written n (signedText n).toList := by
  have hdigits := Json.Number.orderly_digits n.natAbs
  rw [toList_signedText]
  split
  · have hvalue : -Int.ofNat (ofDigits (digits n.natAbs)) = n := by
      rw [ofDigits_digits]
      show -(n.natAbs : Int) = n
      omega
    have hzero : digits n.natAbs ≠ ['0'] := by
      rw [Ne, ← ofDigits_eq_zero_iff hdigits, ofDigits_digits]
      omega
    have hform := Written.negative hdigits hzero
    rwa [hvalue] at hform
  · have hvalue : Int.ofNat (ofDigits (digits n.natAbs)) = n := by
      rw [ofDigits_digits]
      show (n.natAbs : Int) = n
      omega
    have hform := Written.natural hdigits
    rwa [hvalue] at hform

theorem Written.toList_eq (h : Written n cs) : (signedText n).toList = cs := by
  rw [toList_signedText]
  cases h with
  | natural h =>
      have hsign : ¬Int.ofNat (ofDigits cs) < 0 := Int.not_lt.mpr (Int.natCast_nonneg _)
      have hsize : (Int.ofNat (ofDigits cs)).natAbs = ofDigits cs := rfl
      rw [if_neg hsign, hsize, digits_ofDigits h]
  | @negative ds h hzero =>
      have hsign : -Int.ofNat (ofDigits ds) < 0 := by
        have hpos := mt (ofDigits_eq_zero_iff h).mp hzero
        show -(ofDigits ds : Int) < 0
        omega
      have hsize : (-Int.ofNat (ofDigits ds)).natAbs = ofDigits ds := Int.natAbs_neg _
      rw [if_pos hsign, hsize, digits_ofDigits h]

/-- **The text of a whole number is the one that is written for it.** -/
theorem toList_signedText_eq_iff : (signedText n).toList = cs ↔ Written n cs := by
  refine ⟨?_, Written.toList_eq⟩
  rintro rfl
  exact written_signedText n

end Decimal

/-! ## Doubles -/

namespace Double

variable {cs : List Char} {e : Int} {negative : Bool} {x : Double}

/-- Digits, perhaps with a point before, among or after them: the digits before the point and those
after it. -/
inductive Pointed : (whole places : List Char) → List Char → Prop where
  | whole {whole : List Char} (h : Numeral whole) : Pointed whole [] whole
  | point {whole places : List Char} (h : Numeral (whole ++ places)) :
      Pointed whole places (whole ++ '.' :: places)

/-- A numeral without its sign, perhaps with an exponent. Each place behind the point takes one off
the exponent. -/
inductive Numeric (negative : Bool) : Double → List Char → Prop where
  | mk {whole places word tail : List Char} {e : Int} (h : Pointed whole places word)
      (he : tail = [] ∧ e = 0 ∨ Exponent e tail) :
      Numeric negative
        (ofDecimal negative (Decimal.ofDigits (whole ++ places)) (e - places.length)) (word ++ tail)

/-- A double without its sign: a numeral, or a word in any case. -/
inductive Unsigned (negative : Bool) : Double → List Char → Prop where
  | numeral {x : Double} {word : List Char} (h : Numeric negative x word) : Unsigned negative x word
  | infinite {word : List Char} (h : word.map Char.toLower = "inf".toList ∨
      word.map Char.toLower = "infinity".toList) : Unsigned negative (.infinite negative) word
  | nan {word : List Char} (h : word.map Char.toLower = "nan".toList) : Unsigned negative .nan word

/-- A double, with or without a sign. -/
inductive Spelled : Double → List Char → Prop where
  | plain {x : Double} {word : List Char} (h : Unsigned false x word) : Spelled x word
  | plus {x : Double} {word : List Char} (h : Unsigned false x word) : Spelled x ('+' :: word)
  | minus {x : Double} {word : List Char} (h : Unsigned true x word) : Spelled x ('-' :: word)

/-- Every whole number is also a double. -/
theorem exists_spelled_of_whole {n : Int} (h : Decimal.Spelled n cs) : ∃ x, Spelled x cs := by
  have hwhole : ∀ negative {ds}, Numeral ds → ∃ x, Unsigned negative x ds := by
    intro negative ds hds
    have hform : Numeric negative _ _ := .mk (.whole hds) (Or.inl ⟨rfl, rfl⟩)
    rw [List.append_nil] at hform
    exact ⟨_, .numeral hform⟩
  cases h with
  | plain hds =>
      obtain ⟨x, hx⟩ := hwhole false hds
      exact ⟨x, .plain hx⟩
  | plus hds =>
      obtain ⟨x, hx⟩ := hwhole false hds
      exact ⟨x, .plus hx⟩
  | minus hds =>
      obtain ⟨x, hx⟩ := hwhole true hds
      exact ⟨x, .minus hx⟩

/-! ### Reading -/

theorem readExponent?_eq_some_iff :
    readExponent? cs = some e ↔ cs = [] ∧ e = 0 ∨ Exponent e cs := by
  cases cs with
  | nil =>
      constructor
      · intro h
        exact Or.inl ⟨rfl, (Option.some.inj h).symm⟩
      · rintro (⟨-, rfl⟩ | h)
        · rfl
        · obtain ⟨_, _, h, -⟩ := h.head
          cases h
  | cons mark rest =>
      rw [readExponent?]
      constructor
      · intro h
        split at h
        · rename_i hmark
          cases Decimal.readSigned?_eq_some_iff.mp h with
          | plain hds => exact Or.inr (.plain hmark hds)
          | plus hds => exact Or.inr (.plus hmark hds)
          | minus hds => exact Or.inr (.minus hmark hds)
        · cases h
      · rintro (⟨h, -⟩ | h)
        · cases h
        · cases h with
          | plain hmark hds =>
              rw [if_pos hmark]
              exact Decimal.readSigned?_eq_some_iff.mpr (.plain hds)
          | plus hmark hds =>
              rw [if_pos hmark]
              exact Decimal.readSigned?_eq_some_iff.mpr (.plus hds)
          | minus hmark hds =>
              rw [if_pos hmark]
              exact Decimal.readSigned?_eq_some_iff.mpr (.minus hds)

/-- What comes after the digits does not go on with one. -/
theorem head_isDigit_of_exponent (h : cs = [] ∧ e = 0 ∨ Exponent e cs) :
    ∀ c ∈ cs.head?, c.isDigit = false := by
  rcases h with ⟨rfl, -⟩ | h
  · exact nofun
  · exact h.head_isDigit

/-- What comes after the digits does not begin with a point. -/
theorem not_point_of_exponent (h : cs = [] ∧ e = 0 ∨ Exponent e cs) (rest : List Char) :
    cs ≠ '.' :: rest := by
  rintro rfl
  rcases h with ⟨h, -⟩ | h
  · cases h
  · obtain ⟨mark, _, hcons, hmark⟩ := h.head
    obtain ⟨rfl, -⟩ := List.cons.inj hcons
    rcases hmark with hmark | hmark <;> cases hmark

section

variable {ds whole places rest tail : List Char}

theorem takeWhile_append (hds : ∀ c ∈ ds, c.isDigit = true)
    (hrest : ∀ c ∈ rest.head?, c.isDigit = false) : (ds ++ rest).takeWhile Char.isDigit = ds :=
  congrArg Prod.fst (Json.Number.digits_append hds rest hrest)

/-- Digits without a point, and what comes after them. -/
theorem readUnsigned?_plain (hwhole : (whole ++ tail).takeWhile Char.isDigit = whole)
    (hpoint : ∀ rest, tail ≠ '.' :: rest) :
    readUnsigned? negative (whole ++ tail) =
      if whole = [] then none
      else (readExponent? tail).bind fun e =>
        some (ofDecimal negative (Decimal.ofDigits (whole ++ [])) (e - ([] : List Char).length)) := by
  -- there is no point, so the match goes on with the digits alone
  simp only [readUnsigned?, hwhole, List.drop_left]
  simp

/-- Digits with a point before, among or after them, and what comes after these. -/
theorem readUnsigned?_point
    (hwhole : (whole ++ '.' :: (places ++ tail)).takeWhile Char.isDigit = whole)
    (hplaces : (places ++ tail).takeWhile Char.isDigit = places) :
    readUnsigned? negative (whole ++ '.' :: (places ++ tail)) =
      if whole ++ places = [] then none
      else (readExponent? tail).bind fun e =>
        some (ofDecimal negative (Decimal.ofDigits (whole ++ places)) (e - places.length)) := by
  simp [readUnsigned?, hwhole, hplaces]

/-- What is read has the form of a numeral. -/
theorem numeric_of_readUnsigned? (h : readUnsigned? negative cs = some x) :
    Numeric negative x cs := by
  obtain ⟨whole, rest, hdigits, rfl, hwhole⟩ := Json.Number.exists_digits cs
  have htake : (whole ++ rest).takeWhile Char.isDigit = whole := congrArg Prod.fst hdigits
  by_cases hpoint : ∃ after, rest = '.' :: after
  · obtain ⟨after, rfl⟩ := hpoint
    obtain ⟨places, tail, hdigits, rfl, hplaces⟩ := Json.Number.exists_digits after
    rw [readUnsigned?_point htake (congrArg Prod.fst hdigits)] at h
    split at h
    · cases h
    · rename_i hne
      obtain ⟨e, he, h⟩ := Option.bind_eq_some_iff.mp h
      cases h
      have hall : ∀ c ∈ whole ++ places, c.isDigit = true := fun c hc =>
        (List.mem_append.mp hc).elim (hwhole c) (hplaces c)
      have hform : Numeric negative _ _ :=
        .mk (.point ⟨hne, hall⟩) (readExponent?_eq_some_iff.mp he)
      rwa [List.append_assoc, List.cons_append] at hform
  · rw [readUnsigned?_plain htake fun after hafter => hpoint ⟨after, hafter⟩] at h
    split at h
    · cases h
    · rename_i hne
      obtain ⟨e, he, h⟩ := Option.bind_eq_some_iff.mp h
      cases h
      exact .mk (.whole ⟨hne, hwhole⟩) (readExponent?_eq_some_iff.mp he)

/-- What has the form of a numeral is read. -/
theorem readUnsigned?_of_numeric (h : Numeric negative x cs) :
    readUnsigned? negative cs = some x := by
  obtain ⟨h, he⟩ := h
  rename_i whole places word tail e
  have htail := head_isDigit_of_exponent he
  have hread := readExponent?_eq_some_iff.mpr he
  cases h with
  | whole h =>
      rw [readUnsigned?_plain (takeWhile_append h.isDigit htail) (not_point_of_exponent he),
        if_neg h.ne_nil, hread]
      rfl
  | point h =>
      have hwhole : ∀ c ∈ whole, c.isDigit = true := fun c hc =>
        h.isDigit c (List.mem_append_left places hc)
      have hplaces : ∀ c ∈ places, c.isDigit = true := fun c hc =>
        h.isDigit c (List.mem_append_right whole hc)
      rw [List.append_assoc, List.cons_append,
        readUnsigned?_point (takeWhile_append hwhole (by simp)) (takeWhile_append hplaces htail),
        if_neg h.ne_nil, hread]
      rfl

/-- **A numeral is read from a text that has its form.** -/
theorem readUnsigned?_eq_some_iff : readUnsigned? negative cs = some x ↔ Numeric negative x cs :=
  ⟨numeric_of_readUnsigned?, readUnsigned?_of_numeric⟩

end

/-- What a text without a sign begins with. -/
def Begins (c : Char) : Prop := c.isDigit = true ∨ c = '.' ∨ c.toLower = 'i' ∨ c.toLower = 'n'

theorem not_begins_minus : ¬Begins '-' := by
  unfold Begins
  decide

theorem not_begins_plus : ¬Begins '+' := by
  unfold Begins
  decide

theorem Numeric.head (h : Numeric negative x cs) :
    ∃ c rest, cs = c :: rest ∧ (c.isDigit = true ∨ c = '.') := by
  obtain ⟨h, -⟩ := h
  rename_i whole places word tail _
  cases h with
  | whole h =>
      cases whole with
      | nil => exact absurd rfl h.ne_nil
      | cons c ds => exact ⟨c, ds ++ tail, rfl, Or.inl (h.isDigit c List.mem_cons_self)⟩
  | point h =>
      cases whole with
      | nil => exact ⟨'.', places ++ tail, rfl, Or.inr rfl⟩
      | cons c ds => exact ⟨c, _, rfl, Or.inl (h.isDigit c List.mem_cons_self)⟩

/-- No numeral is a word. -/
theorem Numeric.map_toLower_ne (h : Numeric negative x cs) {c : Char} (hdigit : c.isDigit = false)
    (hpoint : c ≠ '.') (rest : List Char) : cs.map Char.toLower ≠ c :: rest := by
  obtain ⟨d, ds, rfl, hd⟩ := h.head
  intro hcs
  obtain ⟨rfl, -⟩ := List.cons.inj hcs
  rcases hd with hd | rfl
  · rw [Text.toLower_of_isDigit hd, hd] at hdigit
    cases hdigit
  · exact hpoint rfl

theorem Unsigned.head (h : Unsigned negative x cs) : ∃ c rest, cs = c :: rest ∧ Begins c := by
  cases h with
  | numeral h =>
      obtain ⟨c, rest, hcs, hc | hc⟩ := h.head
      · exact ⟨c, rest, hcs, Or.inl hc⟩
      · exact ⟨c, rest, hcs, Or.inr (Or.inl hc)⟩
  | infinite h =>
      rcases h with h | h
      · obtain ⟨c, rest, hcs, hc, -⟩ := List.map_eq_cons_iff.mp h
        exact ⟨c, rest, hcs, Or.inr (Or.inr (Or.inl hc))⟩
      · obtain ⟨c, rest, hcs, hc, -⟩ := List.map_eq_cons_iff.mp h
        exact ⟨c, rest, hcs, Or.inr (Or.inr (Or.inl hc))⟩
  | nan h =>
      obtain ⟨c, rest, hcs, hc, -⟩ := List.map_eq_cons_iff.mp h
      exact ⟨c, rest, hcs, Or.inr (Or.inr (Or.inr hc))⟩

theorem Spelled.head (h : Spelled x cs) :
    ∃ c rest, cs = c :: rest ∧ (Begins c ∨ c = '+' ∨ c = '-') := by
  cases h with
  | plain h =>
      obtain ⟨c, rest, hcs, hc⟩ := h.head
      exact ⟨c, rest, hcs, Or.inl hc⟩
  | plus h => exact ⟨'+', _, rfl, Or.inr (Or.inl rfl)⟩
  | minus h => exact ⟨'-', _, rfl, Or.inr (Or.inr rfl)⟩

/-- A word or a numeral is read from what is left without the sign. -/
theorem readWord?_eq_some_iff :
    (if String.ofList (cs.map Char.toLower) = "inf" ∨
        String.ofList (cs.map Char.toLower) = "infinity" then some (.infinite negative)
      else if String.ofList (cs.map Char.toLower) = "nan" then some .nan
      else readUnsigned? negative cs) = some x ↔ Unsigned negative x cs := by
  have hword : ∀ {s : String}, String.ofList (cs.map Char.toLower) = s ↔
      cs.map Char.toLower = s.toList := by
    intro s
    rw [← String.toList_inj, String.toList_ofList]
  simp only [hword]
  constructor
  · intro h
    split at h
    · cases h
      exact .infinite ‹_›
    split at h
    · cases h
      exact .nan ‹_›
    · exact .numeral (readUnsigned?_eq_some_iff.mp h)
  · intro h
    cases h with
    | numeral h =>
        have hinf : cs.map Char.toLower ≠ "inf".toList := h.map_toLower_ne rfl (by decide) _
        have hinfinity : cs.map Char.toLower ≠ "infinity".toList :=
          h.map_toLower_ne rfl (by decide) _
        have hnan : cs.map Char.toLower ≠ "nan".toList := h.map_toLower_ne rfl (by decide) _
        rw [if_neg (not_or.mpr ⟨hinf, hinfinity⟩), if_neg hnan]
        exact readUnsigned?_eq_some_iff.mpr h
    | infinite h => rw [if_pos h]
    | nan h =>
        have hinf : ¬(cs.map Char.toLower = "inf".toList ∨
            cs.map Char.toLower = "infinity".toList) := by
          rw [h]
          decide
        rw [if_neg hinf, if_pos h]

/-- **A double is read from a text if the text stands for it.** -/
theorem read?_eq_some_iff : read? cs = some x ↔ Spelled x cs := by
  constructor
  · intro h
    unfold read? at h
    split at h
    rename_i negative word hsign
    have hword := readWord?_eq_some_iff.mp h
    split at hsign
    · cases hsign
      exact .minus hword
    · cases hsign
      exact .plus hword
    · cases hsign
      exact .plain hword
  · intro h
    cases h with
    | plain h =>
        obtain ⟨c, rest, rfl, hc⟩ := h.head
        unfold read?
        split
        rename_i hsign
        split at hsign
        · obtain ⟨rfl, -⟩ := List.cons.inj ‹_›
          exact absurd hc not_begins_minus
        · obtain ⟨rfl, -⟩ := List.cons.inj ‹_›
          exact absurd hc not_begins_plus
        · cases hsign
          exact readWord?_eq_some_iff.mpr h
    | plus h => exact readWord?_eq_some_iff.mpr h
    | minus h => exact readWord?_eq_some_iff.mpr h

/-! ### Writing -/

/-- The texts that doubles are written with: at most a minus, no zeros in front of other digits, and
no exponent. -/
inductive Shown : List Char → Prop where
  | whole (negative : Bool) {ds : List Char} (h : Orderly ds) :
      Shown ((signText negative).toList ++ ds)
  | point (negative : Bool) {ds places : List Char} (h : Orderly ds) (hplaces : Numeral places) :
      Shown ((signText negative).toList ++ (ds ++ '.' :: places))
  | infinite (negative : Bool) : Shown ((signText negative).toList ++ "inf".toList)
  | nan : Shown "NaN".toList

theorem numeral_padded (width n : Nat) : Numeral (Decimal.padded width n) where
  ne_nil := by simp [Decimal.padded, Decimal.digits_ne_nil]
  isDigit c hc := by
    rcases List.mem_append.mp hc with hc | hc
    · rw [List.eq_of_mem_replicate hc]
      rfl
    · exact Decimal.isDigit_of_mem_digits hc

theorem shown_positional (negative : Bool) (n : Nat) (p : Int) :
    Shown ((signText negative).toList ++ (positional n p).toList) := by
  unfold positional
  split
  · rw [Decimal.toList_text]
    exact .whole negative (Json.Number.orderly_digits _)
  · rw [String.toList_append, String.toList_append, Decimal.toList_text, List.append_assoc]
    have hplaces := numeral_padded (-p).toNat (n % Nat.pow 10 (-p).toNat)
    rw [← String.toList_ofList (l := Decimal.padded _ _)] at hplaces
    exact .point negative (Json.Number.orderly_digits _) hplaces

/-- **What a double is written with.** -/
theorem shown_shortest (x : Double) : Shown x.shortest.toList := by
  cases x with
  | finite negative m q =>
      rw [shortest, String.toList_append]
      exact shown_positional negative _ _
  | infinite negative =>
      rw [shortest, String.toList_append]
      exact .infinite negative
  | nan => exact .nan

end Double

end LogQL
