import LogQL.Proofs.Text.Checked
import LogQL.Proofs.Text.Encoding
import LogQL.Proofs.Text.LetterCase
import LogQL.Url.Parser

/-!
# Segments of a path

A text that is percent-encoded can be a segment: nothing in it separates segments, and reading leaves
it as it is. There are two exceptions, since dots are not encoded. The segment `.` is a step that
stays, and `..` is one that goes up, and reading carries both out. They are the only texts that are
steps when they are encoded (`isDot_encode`, `isDotDot_encode`). A segment that is a step spells one
or two dots when it is decoded, even if they are written by their numbers, and decoding an encoded
text gives back the text.
-/

namespace LogQL

/-- What is true of the characters of a text one by one. -/
theorem Text.forall_of_all {p : Char → Prop} [DecidablePred p] {text : List Char}
    (h : text.all (fun c => decide (p c)) = true) : ∀ c ∈ text, p c :=
  fun c hc => of_decide_eq_true (List.all_eq_true.mp h c hc)

/-- A text is known by its bytes. -/
theorem Text.bytes_injective {xs ys : List Char} (h : bytes xs = bytes ys) : xs = ys := by
  have hbytes : xs.utf8Encode = ys.utf8Encode := congrArg List.toByteArray h
  have htext : String.ofList xs = String.ofList ys :=
    String.toByteArray_inj.mp (by simpa using hbytes)
  exact String.ofList_injective htext

namespace Url

namespace Percent

theorem encodeBut_of_plain {plain : Char → Bool} {text : List Char} (h : ∀ c ∈ text, plain c = true) :
    encodeBut plain text = text := by
  induction text with
  | nil => rfl
  | cons c cs ih =>
      have hcs := ih fun d hd => h d (List.mem_cons_of_mem _ hd)
      rw [encodeBut] at hcs ⊢
      rw [List.flatMap_cons, if_pos (h c List.mem_cons_self), hcs]
      rfl

/-- An encoded text holds letters, digits, four marks and the percent sign. -/
theorem mem_encode {text : List Char} {c : Char} (h : c ∈ encode text) :
    isUnreserved c = true ∨ c = '%' := by
  obtain ⟨d, -, hc⟩ := List.mem_flatMap.mp h
  split at hc
  · rw [List.mem_singleton.mp hc]
    exact Or.inl ‹_›
  · obtain ⟨b, -, hb⟩ := List.mem_flatMap.mp hc
    have hupper : ∀ n ∈ List.range 16, isUnreserved (Hex.upper n) = true := by decide
    have hlt : b.toNat < 256 := b.toNat_lt
    rcases List.mem_cons.mp hb with rfl | hb
    · exact Or.inr rfl
    rcases List.mem_cons.mp hb with rfl | hb
    · exact Or.inl (hupper _ (List.mem_range.mpr (by omega)))
    · rw [List.mem_singleton.mp hb]
      exact Or.inl (hupper _ (List.mem_range.mpr (by omega)))

theorem toNat_lt_of_isUnreserved {c : Char} (h : isUnreserved c = true) : c.toNat < 0x80 := by
  rcases Nat.lt_or_ge c.toNat 0x80 with hlt | hge
  · exact hlt
  · have hword := Checked.isWord_of_not_lt (Nat.not_lt.mpr hge)
    simp only [Text.isWord, Bool.or_eq_false_iff] at hword
    simp only [isUnreserved, hword.1, Bool.false_or, Bool.or_eq_true, beq_iff_eq] at h
    rcases h with ((rfl | rfl) | rfl) | rfl <;> decide

end Percent

/-! ## Steps up and down -/

theorem eq_of_toLower_eq_e {c : Char} (h : c.toLower = 'e') : c = 'e' ∨ c = 'E' := by
  rcases Text.toLower_cases c with hc | ⟨hc, -, -⟩
  · exact Or.inl (hc.symm.trans h)
  · rw [h] at hc
    have he : c.toNat = 'E'.toNat := by
      have h101 : 'e'.toNat = 101 := rfl
      have h69 : 'E'.toNat = 69 := rfl
      omega
    exact Or.inr (Char.toNat_inj.mp he)

/-- A dot, as it is or by its number, and what comes after it. -/
theorem decode_dot_append {dot : List Char} (h : dot = ['.'] ∨ dot = ['%', '2', 'e'] ∨
    dot = ['%', '2', 'E']) (rest : List Char) :
    Percent.decode (dot ++ rest) = Text.bytes ['.'] ++ Percent.decode rest := by
  rcases h with rfl | rfl | rfl
  · exact Percent.decode_cons_of_ne (by decide) rest
  · rfl
  · rfl

theorem eq_of_isDot {segment : List Char} (h : isDot segment = true) :
    segment = ['.'] ∨ segment = ['%', '2', 'e'] ∨ segment = ['%', '2', 'E'] := by
  rw [isDot, Bool.or_eq_true, beq_iff_eq, beq_iff_eq] at h
  rcases h with h | h
  · obtain ⟨c, rfl, hc⟩ := List.map_eq_singleton_iff.mp h
    exact Or.inl (congrArg (fun c => [c]) (Text.eq_of_toLower_eq hc (by decide)))
  · obtain ⟨c, rest, rfl, hc, h⟩ := List.map_eq_cons_iff.mp h
    obtain ⟨d, rest, rfl, hd, h⟩ := List.map_eq_cons_iff.mp h
    obtain ⟨e, rfl, he⟩ := List.map_eq_singleton_iff.mp h
    obtain rfl := Text.eq_of_toLower_eq hc (by decide)
    obtain rfl := Text.eq_of_toLower_eq hd (by decide)
    rcases eq_of_toLower_eq_e he with rfl | rfl
    · exact Or.inr (Or.inl rfl)
    · exact Or.inr (Or.inr rfl)

/-- **A segment that stays where it is spells one dot.** -/
theorem decode_of_isDot {segment : List Char} (h : isDot segment = true) :
    Percent.decode segment = Text.bytes ['.'] := by
  have hdecode := decode_dot_append (eq_of_isDot h) []
  rw [List.append_nil] at hdecode
  exact hdecode

/-- **A segment that goes up spells two dots.** -/
theorem decode_of_isDotDot {segment : List Char} (h : isDotDot segment = true) :
    Percent.decode segment = Text.bytes ['.', '.'] := by
  -- a step up is a dot, and then what would be a step that stays
  have happend : ∀ dot rest : List Char, isDot rest = true →
      (dot = ['.'] ∨ dot = ['%', '2', 'e'] ∨ dot = ['%', '2', 'E']) →
      Percent.decode (dot ++ rest) = Text.bytes ['.', '.'] := by
    intro dot rest hrest hdot
    rw [decode_dot_append hdot, decode_of_isDot hrest]
    rfl
  unfold isDotDot at h
  split at h
  · rename_i rest
    exact happend ['.'] rest h (Or.inl rfl)
  · rename_i e rest
    obtain ⟨he, hrest⟩ := Bool.and_eq_true_iff.mp h
    rw [Bool.or_eq_true, beq_iff_eq, beq_iff_eq] at he
    rcases he with rfl | rfl
    · exact happend ['%', '2', 'e'] rest hrest (Or.inr (Or.inl rfl))
    · exact happend ['%', '2', 'E'] rest hrest (Or.inr (Or.inr rfl))
  · cases h

/-- An encoded text is a step only if the text is one. -/
theorem isDot_encode {text : List Char} (h : text ≠ ['.']) : isDot (Percent.encode text) = false := by
  refine Bool.eq_false_iff.mpr fun hdot => h ?_
  exact Text.bytes_injective ((Percent.decode_encode text).symm.trans (decode_of_isDot hdot))

theorem isDotDot_encode {text : List Char} (h : text ≠ ['.', '.']) :
    isDotDot (Percent.encode text) = false := by
  refine Bool.eq_false_iff.mpr fun hdots => h ?_
  exact Text.bytes_injective ((Percent.decode_encode text).symm.trans (decode_of_isDotDot hdots))

/-! ## Paths -/

/-- A segment that is read as it is. -/
structure Stable (segment : List Char) : Prop where
  plain : ∀ c ∈ segment, plainInPath c = true ∧ isSlash true c = false
  isDot_eq : isDot segment = false
  isDotDot_eq : isDotDot segment = false

/-- An encoded text holds nothing that a path would have to encode, or be split at. -/
theorem plain_of_mem_encode {text : List Char} {c : Char} (h : c ∈ Percent.encode text) :
    plainInPath c = true ∧ isSlash true c = false := by
  rcases Percent.mem_encode h with hc | rfl
  · have hall : ∀ n < 0x80, Percent.isUnreserved (Char.ofNat n) = true →
        plainInPath (Char.ofNat n) = true ∧ isSlash true (Char.ofNat n) = false := by decide
    have hfound := hall c.toNat (Percent.toNat_lt_of_isUnreserved hc)
    rw [Char.ofNat_toNat] at hfound
    exact hfound hc
  · decide

theorem stable_encode {text : List Char} (hdot : text ≠ ['.']) (hdots : text ≠ ['.', '.']) :
    Stable (Percent.encode text) where
  plain _ hc := plain_of_mem_encode hc
  isDot_eq := isDot_encode hdot
  isDotDot_eq := isDotDot_encode hdots

/-- For a fixed segment it can be found out. -/
theorem stable_of_check {segment : List Char}
    (h : (segment.all fun c => plainInPath c && !isSlash true c) = true)
    (hdot : isDot segment = false) (hdots : isDotDot segment = false) : Stable segment where
  plain c hc := by
    have hc := List.all_eq_true.mp h c hc
    rw [Bool.and_eq_true, Bool.not_eq_true'] at hc
    exact hc
  isDot_eq := hdot
  isDotDot_eq := hdots

theorem walk_stable {segments : List (List Char)} (h : ∀ s ∈ segments, Stable s)
    (place : List (List Char)) : walk place segments = place.reverse ++ segments := by
  induction segments generalizing place with
  | nil => exact (List.append_nil _).symm
  | cons s segments ih =>
      have hs := h s List.mem_cons_self
      have hplain : Percent.encodeBut plainInPath s = s :=
        Percent.encodeBut_of_plain fun c hc => (hs.plain c hc).1
      rw [walk]
      simp only [hs.isDot_eq, hs.isDotDot_eq, Bool.or_self, Bool.not_false, if_true, hplain,
        Bool.false_eq_true, if_false]
      rw [ih fun s' hs' => h s' (List.mem_cons_of_mem _ hs')]
      simp

theorem splitAt_append {p : Char → Bool} {s : List Char} (hs : ∀ c ∈ s, p c = false)
    {c : Char} (hc : p c = true) (rest : List Char) :
    splitAt p (s ++ c :: rest) = s :: splitAt p rest := by
  induction s with
  | nil => simp [splitAt, hc]
  | cons d s ih =>
      have hd : p d = false := hs d List.mem_cons_self
      rw [List.cons_append, splitAt, ih fun e he => hs e (List.mem_cons_of_mem _ he)]
      simp [hd]

theorem splitAt_of_forall {p : Char → Bool} {s : List Char} (hs : ∀ c ∈ s, p c = false) :
    splitAt p s = [s] := by
  induction s with
  | nil => rfl
  | cons d s ih =>
      have hd : p d = false := hs d List.mem_cons_self
      rw [splitAt, ih fun e he => hs e (List.mem_cons_of_mem _ he)]
      simp [hd]

/-- What stands for itself in a path is no blank, and ends no path. -/
theorem of_plainInPath {c : Char} (h : plainInPath c = true) : ' ' < c ∧ c ≠ '?' ∧ c ≠ '#' := by
  simp only [plainInPath, plainInFragment, Host.isControl, Bool.and_eq_true, Bool.not_eq_true',
    Bool.or_eq_false_iff, decide_eq_false_iff_not] at h
  obtain ⟨⟨⟨hlow, -⟩, hfragment⟩, hpath⟩ := h
  refine ⟨?_, ?_, ?_⟩
  · have hne : ' ' ≠ c := by
      rintro rfl
      exact absurd hfragment (by decide)
    exact Std.lt_of_le_of_ne (Std.not_lt.mp hlow) hne
  · rintro rfl
    exact absurd hpath (by decide)
  · rintro rfl
    exact absurd hpath (by decide)

/-- **A path of stable segments is read as it is written.** -/
theorem readPath_write {segment : List Char} {segments : List (List Char)}
    (h : ∀ s ∈ segment :: segments, Stable s) :
    readPath true [] (Path.write (.segments (segment :: segments))) =
      .segments (segment :: segments) := by
  have hsplit : ∀ s segments, (∀ t ∈ s :: segments, Stable t) →
      splitAt (isSlash true) (s ++ segments.flatMap ('/' :: ·)) = s :: segments := by
    intro s segments
    induction segments generalizing s with
    | nil =>
        intro h
        have hs := h s List.mem_cons_self
        rw [List.flatMap_nil, List.append_nil]
        exact splitAt_of_forall fun c hc => (hs.plain c hc).2
    | cons t segments ih =>
        intro h
        have hs := h s List.mem_cons_self
        rw [List.flatMap_cons, List.cons_append,
          splitAt_append (fun c hc => (hs.plain c hc).2) (by decide),
          ih t fun u hu => h u (List.mem_cons_of_mem _ hu)]
  show Path.segments (walk [] (splitAt (isSlash true) (segment ++ segments.flatMap ('/' :: ·)))) = _
  rw [hsplit segment segments h, walk_stable h]
  rfl

end Url

end LogQL
