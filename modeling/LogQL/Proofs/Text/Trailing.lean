import LogQL.Proofs.Text.Boundary
import LogQL.Text.Words

/-!
# The end of a text

`trailing p` is fixed by how it splits the text: what it takes is in `p`, and what stands right
before it is not. Every cut that `Text.Words` makes backwards is an instance, so each gets its
description from `eq_trailing_iff`: the rest after the last occurrence of a character
(`AfterLast`), the word that ends a text (`WordRun`), and the last character that is no blank
(`EndsVisibly`).
-/

namespace LogQL.Text

variable {p : Char → Bool}

theorem of_mem_trailing {text : List Char} {c : Char} (h : c ∈ trailing p text) : p c = true := by
  rw [trailing, List.mem_reverse] at h
  exact List.all_eq_true.mp List.all_takeWhile c h

/-- What `trailing` takes stops at the first character that is not in `p`. -/
theorem getLast?_dropTrailing {text : List Char} {c : Char}
    (h : (dropTrailing p text).getLast? = some c) : p c = false := by
  rw [dropTrailing, List.getLast?_reverse] at h
  have hd := List.head?_dropWhile_not p text.reverse
  rw [h] at hd
  exact hd

theorem trailing_append {pre run : List Char} (hrun : ∀ c ∈ run, p c = true)
    (hpre : ∀ c, pre.getLast? = some c → p c = false) :
    trailing p (pre ++ run) = run ∧ dropTrailing p (pre ++ run) = pre := by
  have hstop : pre.reverse.takeWhile p = [] ∧ pre.reverse.dropWhile p = pre.reverse := by
    rcases List.eq_nil_or_concat pre with rfl | ⟨front, c, rfl⟩
    · exact ⟨rfl, rfl⟩
    · have hc := hpre c (by simp)
      simp [hc]
  have htake : (pre ++ run).reverse.takeWhile p = run.reverse := by
    rw [List.reverse_append, List.takeWhile_append_of_pos (by simpa using hrun), hstop.1,
      List.append_nil]
  have hdrop : (pre ++ run).reverse.dropWhile p = pre.reverse := by
    rw [List.reverse_append, List.dropWhile_append_of_pos (by simpa using hrun), hstop.2]
  rw [trailing, dropTrailing, htake, hdrop, List.reverse_reverse, List.reverse_reverse]
  exact ⟨rfl, rfl⟩

/-- More characters in `p` at the end change nothing. -/
theorem dropTrailing_append {run : List Char} (hrun : ∀ c ∈ run, p c = true) (text : List Char) :
    dropTrailing p (text ++ run) = dropTrailing p text := by
  rw [dropTrailing, List.reverse_append, List.dropWhile_append_of_pos (by simpa using hrun)]
  rfl

/-- **The longest end in `p`, described by how it splits the text.** -/
theorem eq_trailing_iff {text run : List Char} :
    run = trailing p text ↔ ∃ pre, text = pre ++ run ∧ (∀ c ∈ run, p c = true) ∧
      ∀ c, pre.getLast? = some c → p c = false := by
  constructor
  · rintro rfl
    exact ⟨dropTrailing p text, (dropTrailing_append_trailing p text).symm,
      fun _ => of_mem_trailing, fun _ => getLast?_dropTrailing⟩
  · rintro ⟨pre, rfl, hrun, hpre⟩
    exact (trailing_append hrun hpre).1.symm

/-! ## After the last occurrence -/

/-- `rest` follows the last `d` of the text. -/
def AfterLast (d : Char) (text rest : List Char) : Prop :=
  ∃ pre, text = pre ++ d :: rest ∧ d ∉ rest

/-- The last occurrence is where the longest end without the character begins. -/
theorem afterLast_iff {d : Char} {text rest : List Char} :
    AfterLast d text rest ↔ d ∈ text ∧ rest = trailing (· != d) text := by
  constructor
  · rintro ⟨pre, rfl, hd⟩
    refine ⟨by simp, eq_trailing_iff.mpr ⟨pre ++ [d], by simp, ?_, ?_⟩⟩
    · intro c hc
      exact bne_iff_ne.mpr fun he => hd (he ▸ hc)
    · intro c hc
      rw [List.getLast?_concat] at hc
      rw [← Option.some.inj hc]; simp
  · rintro ⟨hd, hrest⟩
    obtain ⟨pre, rfl, hrun, hpre⟩ := eq_trailing_iff.mp hrest
    have hnot : d ∉ rest := fun h => absurd (hrun d h) (by simp)
    -- the text has a `d`, so it stands in front, and nothing but a `d` can end the front
    rcases List.eq_nil_or_concat pre with rfl | ⟨front, c, rfl⟩
    · exact absurd hd hnot
    · have hc : c = d := by simpa using hpre c (by simp)
      exact ⟨front, by simp [hc], hnot⟩

theorem AfterLast.unique {d : Char} {text rest rest' : List Char} (h : AfterLast d text rest)
    (h' : AfterLast d text rest') : rest = rest' :=
  (afterLast_iff.mp h).2.trans (afterLast_iff.mp h').2.symm

/-- The line that a text ends in: what follows its last line break, or all of it. -/
def LastLine (text line : List Char) : Prop :=
  AfterLast '\n' text line ∨ '\n' ∉ text ∧ line = text

theorem lastLine_iff {text line : List Char} :
    LastLine text line ↔ line = trailing (· != '\n') text := by
  rw [LastLine, afterLast_iff]
  by_cases h : '\n' ∈ text
  · simp [h]
  · have hall : trailing (· != '\n') text = text := by
      refine (eq_trailing_iff.mpr ⟨[], rfl, ?_, by simp⟩).symm
      intro c hc
      exact bne_iff_ne.mpr fun he => h (he ▸ hc)
    simp [h, hall]

theorem LastLine.suffix {text line : List Char} (h : LastLine text line) : line <:+ text := by
  obtain ⟨pre, hpre, -⟩ := eq_trailing_iff.mp (lastLine_iff.mp h)
  exact ⟨pre, hpre.symm⟩

/-! ## The word at the end -/

/-- `run` is the word that ends the text: all of it continues a word, and what stands before it
does not. -/
def WordRun (text run : List Char) : Prop :=
  ∃ pre, text = pre ++ run ∧ (∀ c ∈ run, isWord c = true) ∧
    ∀ c, pre.getLast? = some c → isWord c = false

theorem wordRun_iff {text run : List Char} : WordRun text run ↔ run = trailing isWord text :=
  eq_trailing_iff.symm

theorem WordRun.suffix {text run : List Char} (h : WordRun text run) : run <:+ text := by
  obtain ⟨pre, hpre, -⟩ := h
  exact ⟨pre, hpre.symm⟩

/-- The word that ends at an offset fills the text from `wordStart` on. -/
theorem wordStart_add (text : List Char) (cursor : Nat) :
    wordStart text cursor + byteLength (trailing isWord (upTo text cursor)) =
      clamp text cursor := by
  rw [wordStart, ← byteLength_append, dropTrailing_append_trailing]
  rfl

/-- At a boundary the word under way begins as far back as it is long. -/
theorem wordStart_eq_sub {text run : List Char} {cursor : Nat} (hc : IsBoundary text cursor)
    (h : WordRun (upTo text cursor) run) : wordStart text cursor = cursor - byteLength run := by
  have hadd := wordStart_add text cursor
  rw [← wordRun_iff.mp h, show clamp text cursor = cursor from hc] at hadd
  omega

theorem wordStart_le (text : List Char) (cursor : Nat) :
    wordStart text cursor ≤ clamp text cursor :=
  Nat.le.intro (wordStart_add text cursor)

theorem isBoundary_wordStart (text : List Char) (cursor : Nat) :
    IsBoundary text (wordStart text cursor) := by
  refine isBoundary_iff.mpr ⟨dropTrailing isWord (upTo text cursor),
    trailing isWord (upTo text cursor) ++ after text cursor, ?_, rfl⟩
  rw [← List.append_assoc, dropTrailing_append_trailing, upTo_append_after]

/-- **The slice from `wordStart` on is the word.** -/
theorem slice?_wordStart {text : List Char} {cursor : Nat} (hc : IsBoundary text cursor) :
    slice? text (wordStart text cursor) cursor = some (trailing isWord (upTo text cursor)) := by
  have hs := slice?_append (dropTrailing isWord (upTo text cursor))
    (trailing isWord (upTo text cursor)) (after text cursor)
  have hstop : wordStart text cursor + byteLength (trailing isWord (upTo text cursor)) = cursor :=
    (wordStart_add text cursor).trans hc
  rw [dropTrailing_append_trailing, upTo_append_after] at hs
  rw [wordStart] at hstop ⊢
  rw [hstop] at hs
  exact hs

/-! ## Blanks at the end -/

/-- Less the blanks around it, the text ends in `c`. -/
def EndsVisibly (text : List Char) (c : Char) : Prop :=
  ∃ pre blanks, text = pre ++ c :: blanks ∧ isBlank c = false ∧ ∀ b ∈ blanks, isBlank b = true

theorem dropWhile_append_cons {pre rest : List Char} {c : Char} (hc : p c = false) :
    (pre ++ c :: rest).dropWhile p = pre.dropWhile p ++ c :: rest := by
  induction pre with
  | nil => simp [hc]
  | cons x pre ih =>
      by_cases hx : p x = true
      · simp [hx, ih]
      · simp [hx]

/-- **The last character of the trimmed text is the last one that is no blank.** -/
theorem getLast?_trim {text : List Char} {c : Char} :
    (trim text).getLast? = some c ↔ EndsVisibly text c := by
  rw [trim, trimEnd]
  constructor
  · intro h
    obtain ⟨front, hfront⟩ := List.getLast?_eq_some_iff.mp h
    have hdrop := dropTrailing_append_trailing isBlank (text.dropWhile isBlank)
    refine ⟨text.takeWhile isBlank ++ front, trailing isBlank (text.dropWhile isBlank), ?_,
      getLast?_dropTrailing h, fun _ => of_mem_trailing⟩
    rw [hfront, List.append_assoc, List.singleton_append] at hdrop
    rw [List.append_assoc, hdrop, List.takeWhile_append_dropWhile]
  · rintro ⟨pre, blanks, rfl, hc, hblanks⟩
    have hlast : ∀ x, (pre.dropWhile isBlank ++ [c]).getLast? = some x → isBlank x = false := by
      intro x hx
      rw [List.getLast?_concat] at hx
      rw [← Option.some.inj hx, hc]
    have hsplit := (trailing_append hblanks hlast).2
    rw [List.append_assoc, List.singleton_append] at hsplit
    rw [dropWhile_append_cons hc, hsplit, List.getLast?_concat]

end LogQL.Text
