import LogQL.Json.Token
import LogQL.Proofs.Text.Encoding

/-!
# String literals

What may stand between the quotes of a string literal, apart from how it is read: a list of elements
(`Literal.Elements`), and a text that has the same 16-bit units as they (`Literal.Written`). An
element that is a character stands for the units of that character, and an escape with four digits
for one unit. If no text has the units of a literal, half of a surrogate pair stands on its own in
it, and the literal has no text.

The reader puts pairs together as it goes along. It gives an answer just where the grammar has one,
and gives that one (`Literal.written_iff`). It does not look for the quote that ends the literal,
which is left to the scanner, so what it is given has to be `Enclosed`.
-/

namespace LogQL.Json

variable {c : Char} {cs rest content : List Char}

/-! ## Units -/

/-- The 16-bit units of a character: its number, or a high and a low half that share what its number
has beyond `2 ^ 16`. -/
def utf16 (c : Char) : List Nat :=
  if c.toNat < 0x10000 then [c.toNat]
  else [0xD800 + (c.toNat - 0x10000) / 1024, 0xDC00 + (c.toNat - 0x10000) % 1024]

/-- A unit that begins a pair. -/
def IsHigh (n : Nat) : Prop := 0xD800 ≤ n ∧ n < 0xDC00

/-- A unit that ends a pair. -/
def IsLow (n : Nat) : Prop := 0xDC00 ≤ n ∧ n < 0xE000

/-- A character has one unit, no half of a pair, or two, which are a pair. -/
theorem utf16_cases (c : Char) :
    (utf16 c = [c.toNat] ∧ ¬IsHigh c.toNat ∧ ¬IsLow c.toNat) ∨
      ∃ h l, utf16 c = [h, l] ∧ IsHigh h ∧ IsLow l ∧
        c.toNat = 0x10000 + (h - 0xD800) * 1024 + (l - 0xDC00) := by
  have hvalid : c.toNat < 0xD800 ∨ 0xDFFF < c.toNat ∧ c.toNat < 0x110000 := c.valid
  unfold utf16 IsHigh IsLow
  by_cases hsmall : c.toNat < 0x10000
  · rw [if_pos hsmall]
    exact Or.inl ⟨rfl, by omega, by omega⟩
  · rw [if_neg hsmall]
    exact Or.inr ⟨_, _, rfl, by omega, by omega, by omega⟩

theorem utf16_ofNat {n : Nat} (hlt : n < 0x10000) (hhigh : ¬IsHigh n) (hlow : ¬IsLow n) :
    utf16 (Char.ofNat n) = [n] := by
  unfold IsHigh at hhigh
  unfold IsLow at hlow
  have hvalid : n < 0xD800 ∨ 0xDFFF < n ∧ n < 0x110000 := by omega
  rw [utf16, Text.toNat_ofNat hvalid, if_pos hlt]

theorem utf16_ofNat_pair {h l : Nat} (hhigh : IsHigh h) (hlow : IsLow l) :
    utf16 (Char.ofNat (0x10000 + (h - 0xD800) * 1024 + (l - 0xDC00))) = [h, l] := by
  unfold IsHigh at hhigh
  unfold IsLow at hlow
  have hvalid : 0x10000 + (h - 0xD800) * 1024 + (l - 0xDC00) < 0x110000 := by omega
  rw [utf16, Text.toNat_ofNat (Or.inr ⟨by omega, hvalid⟩), if_neg (by omega)]
  simp only [List.cons.injEq, and_true]
  omega

/-- **A character is the only one that begins with its units.** -/
theorem utf16_append_inj {d : Char} {us vs : List Nat} (h : utf16 c ++ us = utf16 d ++ vs) :
    c = d ∧ us = vs := by
  rcases utf16_cases c with ⟨hc, hchigh, -⟩ | ⟨x, y, hc, hx, -, hcn⟩ <;>
    rcases utf16_cases d with ⟨hd, hdhigh, -⟩ | ⟨x', y', hd, hx', -, hdn⟩ <;>
    rw [hc, hd] at h
  · obtain ⟨hcd, hus⟩ := List.cons.inj h
    exact ⟨Char.toNat_inj.mp hcd, hus⟩
  · -- only the first unit of a pair is high
    exact absurd ((List.cons.inj h).1 ▸ hx') hchigh
  · exact absurd ((List.cons.inj h).1 ▸ hx) hdhigh
  · obtain ⟨hxx', h⟩ := List.cons.inj h
    obtain ⟨hyy', hus⟩ := List.cons.inj h
    rw [← hxx', ← hyy', ← hcn] at hdn
    exact ⟨(Char.toNat_inj.mp hdn).symm, hus⟩

/-- A text that begins with the units of a character begins with the character. -/
theorem utf16_append_eq_iff {us : List Nat} :
    utf16 c ++ us = cs.flatMap utf16 ↔ ∃ cs', us = cs'.flatMap utf16 ∧ cs = c :: cs' := by
  constructor
  · intro h
    cases cs with
    | nil => rcases utf16_cases c with ⟨hc, -⟩ | ⟨x, y, hc, -⟩ <;> simp [hc] at h
    | cons d ds =>
        obtain ⟨rfl, hus⟩ := utf16_append_inj h
        exact ⟨ds, hus, rfl⟩
  · rintro ⟨cs', rfl, rfl⟩
    rfl

/-- **A text is the only one with its units.** -/
theorem flatMap_utf16_inj {ds : List Char} : cs.flatMap utf16 = ds.flatMap utf16 ↔ cs = ds := by
  constructor
  · intro h
    induction cs generalizing ds with
    | nil =>
        cases ds with
        | nil => rfl
        | cons d ds => rcases utf16_cases d with ⟨hd, -⟩ | ⟨x, y, hd, -⟩ <;> simp [hd] at h
    | cons c cs ih =>
        obtain ⟨ds', hds', rfl⟩ := utf16_append_eq_iff.mp h
        rw [ih hds']
  · rintro rfl
    rfl

theorem exists_utf16_append {n : Nat} {us : List Nat} (h : n :: us = cs.flatMap utf16) :
    ∃ c vs, n :: us = utf16 c ++ vs := by
  cases cs with
  | nil => cases h
  | cons c cs => exact ⟨c, cs.flatMap utf16, h⟩

/-- No character begins with the end of a pair. -/
theorem not_low_of_utf16 {n : Nat} {us vs : List Nat} (h : n :: us = utf16 c ++ vs) : ¬IsLow n := by
  unfold IsLow
  rcases utf16_cases c with ⟨hc, -, hlow⟩ | ⟨x, y, hc, hx, -, -⟩ <;>
    rw [hc] at h <;> obtain ⟨rfl, -⟩ := List.cons.inj h
  · exact hlow
  · unfold IsHigh at hx
    omega

/-- A character goes on with the end of a pair where it begins one. -/
theorem exists_low_of_utf16 {n : Nat} {us vs : List Nat} (h : n :: us = utf16 c ++ vs)
    (hn : IsHigh n) : ∃ m us', us = m :: us' ∧ IsLow m := by
  rcases utf16_cases c with ⟨hc, hhigh, -⟩ | ⟨x, y, hc, -, hy, -⟩ <;>
    rw [hc] at h <;> obtain ⟨rfl, hus⟩ := List.cons.inj h
  · exact absurd hn hhigh
  · exact ⟨y, vs, hus, hy⟩

/-! ## Elements -/

namespace Literal

/-- The units that an element stands for. -/
def Piece.units : Piece → List Nat
  | .char c => utf16 c
  | .unit n => [n]

/-- The first elements make up a character, and the others are as they were. -/
theorem join?_eq_some_iff_of_cons {ps ps' : List Piece}
    (ih : ∀ cs, join? ps = some cs ↔ ps.flatMap Piece.units = cs.flatMap utf16)
    (hjoin : join? ps' = (join? ps).map (c :: ·))
    (hunits : ps'.flatMap Piece.units = utf16 c ++ ps.flatMap Piece.units) :
    join? ps' = some cs ↔ ps'.flatMap Piece.units = cs.flatMap utf16 := by
  rw [hjoin, hunits, utf16_append_eq_iff, Option.map_eq_some_iff]
  exact exists_congr fun cs' => and_congr (ih cs') eq_comm

/-- **Putting pairs together undoes taking them apart.** -/
theorem join?_eq_some_iff {ps : List Piece} (h : ∀ n, .unit n ∈ ps → n < 0x10000) :
    join? ps = some cs ↔ ps.flatMap Piece.units = cs.flatMap utf16 := by
  induction ps using join?.induct generalizing cs with
  | case1 =>
      cases cs with
      | nil => simp [join?]
      | cons c cs => rcases utf16_cases c with ⟨hc, -⟩ | ⟨x, y, hc, -⟩ <;> simp [join?, hc]
  | case2 c rest ih =>
      exact join?_eq_some_iff_of_cons (fun _ => ih fun n hn => h n (List.mem_cons_of_mem _ hn)) rfl
        List.flatMap_cons
  | case3 n hn m rest hm ih =>
      have hjoin : join? (.unit n :: .unit m :: rest) =
          (join? rest).map (Char.ofNat (0x10000 + (n - 0xD800) * 1024 + (m - 0xDC00)) :: ·) := by
        rw [join?.eq_def]
        simp only [hn, hm, and_self, if_true]
      refine join?_eq_some_iff_of_cons (fun _ => ih fun k hk =>
        h k (List.mem_cons_of_mem _ (List.mem_cons_of_mem _ hk))) hjoin ?_
      rw [utf16_ofNat_pair hn hm]
      rfl
  | case4 n hn m rest hm =>
      have hnone : join? (.unit n :: .unit m :: rest) = none := by
        rw [join?.eq_def]
        simp only [hn, hm, and_self, if_true, if_false]
      rw [hnone]
      refine iff_of_false nofun fun hunits => ?_
      obtain ⟨c, us, hc⟩ := exists_utf16_append hunits
      obtain ⟨m', us', hus, hlow⟩ := exists_low_of_utf16 hc hn
      exact hm ((List.cons.inj hus).1 ▸ hlow)
  | case5 n rest hn hrest =>
      have hnone : join? (.unit n :: rest) = none := by
        rw [join?.eq_def]
        simp only [hn, and_self, if_true]
      rw [hnone]
      refine iff_of_false nofun fun hunits => ?_
      obtain ⟨c, us, hc⟩ := exists_utf16_append hunits
      obtain ⟨m, us', hus, hlow⟩ := exists_low_of_utf16 hc hn
      cases rest with
      | nil => cases hus
      | cons p rest =>
          cases p with
          | unit k => exact hrest k rest rfl
          | char d => exact not_low_of_utf16 hus.symm hlow
  | case6 n rest hn hlow =>
      have hnone : join? (.unit n :: rest) = none := by
        rw [join?.eq_def]
        simp only [hn, hlow, and_self, if_true, if_false]
      rw [hnone]
      refine iff_of_false nofun fun hunits => ?_
      obtain ⟨c, us, hc⟩ := exists_utf16_append hunits
      exact not_low_of_utf16 hc hlow
  | case7 n rest hn hlow ih =>
      have hjoin : join? (.unit n :: rest) = (join? rest).map (Char.ofNat n :: ·) := by
        rw [join?.eq_def]
        simp only [hn, hlow, if_false]
      refine join?_eq_some_iff_of_cons (fun _ => ih fun k hk => h k (List.mem_cons_of_mem _ hk))
        hjoin ?_
      rw [utf16_ofNat (h n List.mem_cons_self) hn hlow]
      rfl

/-- A character that is not written as an escape is one element. -/
theorem pieces?_cons (hslash : c ≠ '\\') (hlt : ¬c < ' ') (cs : List Char) :
    pieces? (c :: cs) = (pieces? cs).map (.char c :: ·) := by
  rw [pieces?.eq_def]
  split
  · simp_all
  · simp_all
  · simp_all
  · rename_i heq
    obtain ⟨rfl, rfl⟩ := List.cons.inj heq
    rw [if_neg hlt]
    cases pieces? _ <;> rfl

/-- An escape is one element. -/
theorem pieces?_escape {e : Char} (he : escaped? e = some c) (cs : List Char) :
    pieces? ('\\' :: e :: cs) = (pieces? cs).map (.char c :: ·) := by
  have hu : e ≠ 'u' := by
    rintro rfl
    exact absurd he (by simp [escaped?])
  rw [pieces?.eq_def]
  split
  · simp_all
  · simp_all
  · rename_i heq
    obtain ⟨rfl, rfl⟩ := (List.cons.inj (List.cons.inj heq).2)
    rw [he]
    cases pieces? _ <;> rfl
  · rename_i hnot heq
    obtain ⟨rfl, rfl⟩ := List.cons.inj heq
    exact absurd rfl (hnot _ _ rfl)

/-- The number of a unit, and what follows it. -/
theorem pieces?_unit {a b c d : Char} {i j k l : Nat} (ha : Hex.value? a = some i)
    (hb : Hex.value? b = some j) (hc : Hex.value? c = some k) (hd : Hex.value? d = some l)
    (cs : List Char) :
    pieces? ('\\' :: 'u' :: a :: b :: c :: d :: cs) =
      (pieces? cs).map (.unit (4096 * i + 256 * j + 16 * k + l) :: ·) := by
  rw [pieces?, ha, hb, hc, hd]
  cases pieces? cs <;> rfl

/-- The elements that stand between the quotes of a literal: a character that is no quote, no
backslash and no control character; a character behind a backslash; or the four digits of a unit. -/
inductive Elements : List Piece → List Char → Prop where
  | nil : Elements [] []
  | char {c : Char} {ps : List Piece} {rest : List Char} (hquote : c ≠ '"') (hslash : c ≠ '\\')
      (hcontrol : ¬c < ' ') (h : Elements ps rest) : Elements (.char c :: ps) (c :: rest)
  | escape {e c : Char} {ps : List Piece} {rest : List Char} (he : escaped? e = some c)
      (h : Elements ps rest) : Elements (.char c :: ps) ('\\' :: e :: rest)
  | unit {a b c d : Char} {i j k l : Nat} {ps : List Piece} {rest : List Char}
      (ha : Hex.value? a = some i) (hb : Hex.value? b = some j) (hc : Hex.value? c = some k)
      (hd : Hex.value? d = some l) (h : Elements ps rest) :
      Elements (.unit (4096 * i + 256 * j + 16 * k + l) :: ps)
        ('\\' :: 'u' :: a :: b :: c :: d :: rest)

/-- The content of a literal with this text, or without one: its elements stand for the units of the
text, and for those of no text if there is none. -/
def Written (text : Option String) (content : List Char) : Prop :=
  ∃ ps, Elements ps content ∧
    ∀ s, text = some s ↔ ps.flatMap Piece.units = s.toList.flatMap utf16

/-- What the scanner passes over between two quotes: nothing but a backslash goes with the character
behind it. -/
inductive Enclosed : List Char → Prop where
  | nil : Enclosed []
  | char {c : Char} {rest : List Char} (hquote : c ≠ '"') (hslash : c ≠ '\\')
      (h : Enclosed rest) : Enclosed (c :: rest)
  | escape (e : Char) {rest : List Char} (h : Enclosed rest) : Enclosed ('\\' :: e :: rest)

theorem Enclosed.tail (h : Enclosed (c :: rest)) (hslash : c ≠ '\\') : Enclosed rest := by
  cases h with
  | char _ _ h => exact h
  | escape => exact absurd rfl hslash

theorem Enclosed.behind {e : Char} (h : Enclosed ('\\' :: e :: rest)) : Enclosed rest := by
  cases h with
  | char _ hslash => exact absurd rfl hslash
  | escape _ h => exact h

theorem hex_ne {c : Char} {n : Nat} (h : Hex.value? c = some n) : c ≠ '"' ∧ c ≠ '\\' := by
  constructor <;>
  · rintro rfl
    exact absurd h (by decide +revert)

theorem hex_lt {c : Char} {n : Nat} (h : Hex.value? c = some n) : n < 16 := by
  unfold Hex.value? at h
  split at h
  · rename_i hdigit
    have hle : c.toNat ≤ 57 := hdigit.2
    cases h
    omega
  split at h
  · rename_i hupper
    have hle : c.toNat ≤ 70 := hupper.2
    cases h
    omega
  split at h
  · rename_i hlower
    have hle : c.toNat ≤ 102 := hlower.2
    cases h
    omega
  · cases h

theorem Elements.enclosed {ps : List Piece} (h : Elements ps content) : Enclosed content := by
  induction h with
  | nil => exact .nil
  | char hquote hslash _ _ ih => exact .char hquote hslash ih
  | escape _ _ ih => exact .escape _ ih
  | unit ha hb hc hd _ ih =>
      exact .escape 'u' <| .char (hex_ne ha).1 (hex_ne ha).2 <| .char (hex_ne hb).1 (hex_ne hb).2 <|
        .char (hex_ne hc).1 (hex_ne hc).2 <| .char (hex_ne hd).1 (hex_ne hd).2 ih

theorem Elements.pieces?_eq {ps : List Piece} (h : Elements ps content) :
    pieces? content = some ps := by
  induction h with
  | nil => rfl
  | char _ hslash hcontrol _ ih => rw [pieces?_cons hslash hcontrol, ih, Option.map_some]
  | escape he _ ih => rw [pieces?_escape he, ih, Option.map_some]
  | unit ha hb hc hd _ ih => rw [pieces?_unit ha hb hc hd, ih, Option.map_some]

theorem Elements.unit_lt {ps : List Piece} (h : Elements ps content) {n : Nat}
    (hn : .unit n ∈ ps) : n < 0x10000 := by
  induction h with
  | nil => cases hn
  | char _ _ _ _ ih => exact ih (by simpa using hn)
  | escape _ _ ih => exact ih (by simpa using hn)
  | unit ha hb hc hd _ ih =>
      rcases List.mem_cons.mp hn with hn | hn
      · have hi := hex_lt ha
        have hj := hex_lt hb
        have hk := hex_lt hc
        have hl := hex_lt hd
        cases hn
        omega
      · exact ih hn

/-- Elements that are read stand there. -/
theorem elements_of_pieces? {ps : List Piece} (hcontent : Enclosed content)
    (h : pieces? content = some ps) : Elements ps content := by
  induction content using pieces?.induct generalizing ps with
  | case1 =>
      cases h
      exact .nil
  | case2 a b c d rest ih =>
      rw [pieces?] at h
      obtain ⟨i, ha, h⟩ := Option.bind_eq_some_iff.mp h
      obtain ⟨j, hb, h⟩ := Option.bind_eq_some_iff.mp h
      obtain ⟨k, hc, h⟩ := Option.bind_eq_some_iff.mp h
      obtain ⟨l, hd, h⟩ := Option.bind_eq_some_iff.mp h
      obtain ⟨ps', hrest, h⟩ := Option.bind_eq_some_iff.mp h
      cases h
      have hrest' := (((hcontent.behind.tail (hex_ne ha).2).tail (hex_ne hb).2).tail
        (hex_ne hc).2).tail (hex_ne hd).2
      exact .unit ha hb hc hd (ih hrest' hrest)
  | case3 e rest hu ih =>
      rw [pieces?.eq_3 _ _ hu] at h
      obtain ⟨c, he, h⟩ := Option.bind_eq_some_iff.mp h
      obtain ⟨ps', hrest, h⟩ := Option.bind_eq_some_iff.mp h
      cases h
      exact .escape he (ih hcontent.behind hrest)
  | case4 c rest hu hslash hcontrol =>
      rw [pieces?.eq_4 _ _ hu hslash, if_pos hcontrol] at h
      cases h
  | case5 c rest hu hslash hcontrol ih =>
      cases hcontent with
      | char hquote hne hrest' =>
          rw [pieces?_cons hne hcontrol] at h
          obtain ⟨ps', hrest, rfl⟩ := Option.map_eq_some_iff.mp h
          exact .char hquote hne hcontrol (ih hrest' hrest)
      | escape e _ => exact (hslash e _ rfl rfl).elim

/-- **The content of a literal is read if it is written as one**, and its text is the one it is
written for. -/
theorem written_iff {s : Option String} :
    Written s content ↔ Enclosed content ∧ read? content = some s := by
  have hjoin : ∀ {ps}, Elements ps content →
      ∀ s, (join? ps).map String.ofList = some s ↔
        ps.flatMap Piece.units = s.toList.flatMap utf16 := by
    intro ps hps s
    rw [← join?_eq_some_iff fun n => hps.unit_lt, Option.map_eq_some_iff]
    constructor
    · rintro ⟨cs, hcs, rfl⟩
      rw [String.toList_ofList, hcs]
    · exact fun h => ⟨s.toList, h, String.ofList_toList⟩
  constructor
  · rintro ⟨ps, hps, hs⟩
    refine ⟨hps.enclosed, ?_⟩
    rw [read?, hps.pieces?_eq, Option.map_some, Option.some.injEq]
    exact Option.ext fun s' => (hjoin hps s').trans (hs s').symm
  · rintro ⟨henclosed, h⟩
    obtain ⟨ps, hread, rfl⟩ := Option.map_eq_some_iff.mp h
    have hps := elements_of_pieces? henclosed hread
    exact ⟨ps, hps, hjoin hps⟩

/-! ## Spelling -/

/-- A character is spelled as one element, with the units of the character. -/
theorem elements_escape (c : Char) {ps : List Piece} (h : Elements ps rest) :
    ∃ p, p.units = utf16 c ∧ Elements (p :: ps) (escape c ++ rest) := by
  have hescape : ∀ e, escaped? e = some c →
      ∃ p, p.units = utf16 c ∧ Elements (p :: ps) (['\\', e] ++ rest) :=
    fun e he => ⟨.char c, rfl, .escape he h⟩
  unfold escape
  split
  · exact hescape '"' (by subst_vars; rfl)
  split
  · exact hescape '\\' (by subst_vars; rfl)
  split
  · exact hescape 'b' (by subst_vars; rfl)
  split
  · exact hescape 'f' (by subst_vars; rfl)
  split
  · exact hescape 'n' (by subst_vars; rfl)
  split
  · exact hescape 'r' (by subst_vars; rfl)
  split
  · exact hescape 't' (by subst_vars; rfl)
  split
  · -- a control character is spelled by its number, which is no half of a pair
    rename_i hlt
    have hnat : c.toNat < 32 := hlt
    have hzero : Hex.value? '0' = some 0 := by decide
    have hhigh := Hex.value?_lower (show c.toNat / 16 < 16 by omega)
    have hlow := Hex.value?_lower (show c.toNat % 16 < 16 by omega)
    refine ⟨_, ?_, .unit hzero hzero hhigh hlow h⟩
    rw [Piece.units, utf16, if_pos (by omega), List.cons.injEq]
    exact ⟨by omega, rfl⟩
  · exact ⟨.char c, rfl, .char ‹_› ‹_› ‹_› h⟩

/-- **What is spelled is the content of a literal with that text.** -/
theorem written_spell (s : Option String) : Written s (spell s) := by
  cases s with
  | none =>
      have hd : Hex.value? 'd' = some 13 := by decide
      have h8 : Hex.value? '8' = some 8 := by decide
      have h0 : Hex.value? '0' = some 0 := by decide
      refine ⟨_, .unit hd h8 h0 h0 .nil, fun s => iff_of_false nofun fun hunits => ?_⟩
      -- the unit begins a pair that does not go on
      obtain ⟨c, us, hc⟩ := exists_utf16_append hunits
      obtain ⟨m, us', hus, -⟩ := exists_low_of_utf16 hc ⟨by decide, by decide⟩
      cases hus
  | some s =>
      have hall : ∀ cs : List Char,
          ∃ ps, Elements ps (cs.flatMap escape) ∧ ps.flatMap Piece.units = cs.flatMap utf16 := by
        intro cs
        induction cs with
        | nil => exact ⟨[], .nil, rfl⟩
        | cons c cs ih =>
            obtain ⟨ps, hps, hunits⟩ := ih
            obtain ⟨p, hp, hc⟩ := elements_escape c hps
            refine ⟨p :: ps, hc, ?_⟩
            rw [List.flatMap_cons, List.flatMap_cons, hp, hunits]
      obtain ⟨ps, hps, hunits⟩ := hall s.toList
      refine ⟨ps, hps, fun s' => ?_⟩
      rw [hunits, Option.some.injEq, flatMap_utf16_inj, String.toList_inj]

end Literal

end LogQL.Json
