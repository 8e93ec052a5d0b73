import LogQL.Proofs.Diagnostic.Lines
import LogQL.Proofs.Text.Stops
import Mathlib.Data.List.Induction
import Mathlib.Data.List.TakeWhile
import Mathlib.Data.Prod.Lex

/-!
# What a position counts

A position is looked up in the table of lines, but it can be read off the text before the offset
alone: its line is the number of line breaks there, and its character the number of characters
behind the last of them (`reading`). For the lines that begin no later than an offset are those of
the text before it, since what comes behind begins its own lines further on.

Read that way, each character moves the reading forward: a line break to the next line, anything
else to the next character (`reading_lt_concat`). So of two beginnings of a text the longer one has
the later reading, which is why positions are in the order of their offsets and no two boundaries
share one. In a text of fewer than `2 ^ 32` bytes neither number exceeds a 32-bit word.
-/

namespace LogQL.Position

open Text

variable {text before post line : List Char} {c : Char}

/-! ## Reading order -/

/-- Positions are in order by their lines, and on one line by their characters. -/
def order (p : Position) : Nat ×ₗ Nat := toLex (p.line.toNat, p.character.toNat)

/-- The line breaks of a text, and the characters behind the last one. -/
def reading (before : List Char) : Nat ×ₗ Nat :=
  toLex (before.count '\n', (trailing (· != '\n') before).length)

theorem trailing_concat (p : Char → Bool) (front : List Char) (c : Char) :
    trailing p (front ++ [c]) = if p c then trailing p front ++ [c] else [] := by
  unfold trailing
  rw [List.reverse_append, List.reverse_singleton, List.singleton_append, List.takeWhile_cons]
  split
  · rw [List.reverse_cons]
  · rfl

/-- **Each character moves the reading forward.** -/
theorem reading_lt_concat (before : List Char) (c : Char) :
    reading before < reading (before ++ [c]) := by
  unfold reading
  rw [Prod.Lex.toLex_lt_toLex, List.count_append, trailing_concat]
  by_cases hc : c = '\n'
  · left
    simp [hc]
  · right
    simp [hc]

/-- So what is added to a text comes later. -/
theorem reading_lt_append {more : List Char} (hmore : more ≠ []) (before : List Char) :
    reading before < reading (before ++ more) := by
  induction more using List.reverseRecOn with
  | nil => exact absurd rfl hmore
  | append_singleton more c ih =>
      have hlast := reading_lt_concat (before ++ more) c
      rw [← List.append_assoc]
      by_cases hnil : more = []
      · subst hnil
        rwa [List.append_nil] at hlast ⊢
      · exact lt_trans (ih hnil) hlast

/-! ## The table of lines -/

theorem lineStarts_append (start : Nat) (before post : List Char) :
    lineStarts start (before ++ post) = lineStarts start before ++
      ((located (start + byteLength before) post).filter (·.2 == '\n')).map (·.1 + 1) := by
  rw [Checked.lineStarts_located, Checked.lineStarts_located, Checked.located_append,
    List.filter_append, List.map_append, List.cons_append]

theorem lineStarts_concat (before : List Char) (c : Char) :
    lineStarts 0 (before ++ [c]) =
      lineStarts 0 before ++ if c = '\n' then [byteLength before + 1] else [] := by
  rw [lineStarts_append]
  by_cases hc : c = '\n' <;> simp [located, hc]

theorem length_lineStarts (before : List Char) :
    (lineStarts 0 before).length = before.count '\n' + 1 := by
  induction before using List.reverseRecOn with
  | nil => rfl
  | append_singleton before c ih =>
      rw [lineStarts_concat, List.length_append, List.count_append, ih]
      by_cases hc : c = '\n' <;> simp [hc]

/-- The last line begins where the characters behind the last line break do. -/
theorem getLast?_lineStarts (before : List Char) :
    (lineStarts 0 before).getLast? = some (byteLength (dropTrailing (· != '\n') before)) := by
  induction before using List.reverseRecOn with
  | nil => rfl
  | append_singleton before c ih =>
      rw [lineStarts_concat, Checked.dropTrailing_concat]
      by_cases hc : c = '\n'
      · subst hc
        simp only [if_true, bne_self_eq_false, Bool.false_eq_true, if_false, byteLength_append]
        exact List.getLast?_concat ..
      · simp only [hc, if_false, bne_iff_ne, ne_eq, not_false_eq_true, if_true, List.append_nil, ih]

theorem le_of_mem_lineStarts {before : List Char} {n : Nat} (h : n ∈ lineStarts 0 before) :
    n ≤ byteLength before := by
  have hb : IsBoundary before n := by
    rw [← Checked.lineStarts_eq] at h
    exact Checked.isBoundary_of_mem_lineStarts h
  have hle := clamp_le_byteLength before n
  rwa [show clamp before n = n from hb] at hle

/-- **The lines that begin no later than an offset are those of the text before it.** -/
theorem takeWhile_lineStarts (before post : List Char) :
    (lineStarts 0 (before ++ post)).takeWhile (· ≤ byteLength before) = lineStarts 0 before := by
  rw [lineStarts_append, List.takeWhile_append_of_pos]
  · have hlater : ∀ n ∈ ((located (0 + byteLength before) post).filter (·.2 == '\n')).map (·.1 + 1),
        ¬n ≤ byteLength before := by
      intro n hn
      obtain ⟨m, hm, rfl⟩ := List.mem_map.mp hn
      have hle := le_of_mem_located (List.mem_filter.mp hm).1
      omega
    rw [List.takeWhile_eq_nil_iff.mpr, List.append_nil]
    intro hpos
    simpa using hlater _ (List.getElem_mem hpos)
  · intro n hn
    exact decide_eq_true (le_of_mem_lineStarts hn)

/-! ## The position of an offset -/

/-- **A position is read off the text before the offset.** -/
theorem ofOffset_eq (text : List Char) (offset : Nat) :
    ofOffset text offset =
      ⟨((upTo text offset).count '\n').toUInt32,
        (trailing (· != '\n') (upTo text offset)).length.toUInt32⟩ := by
  have hsplit := upTo_append_after text offset
  have hbegun := takeWhile_lineStarts (upTo text offset) (after text offset)
  have hline := slice?_append (dropTrailing (· != '\n') (upTo text offset))
    (trailing (· != '\n') (upTo text offset)) (after text offset)
  rw [hsplit] at hbegun
  rw [dropTrailing_append_trailing, hsplit, ← byteLength_append,
    dropTrailing_append_trailing] at hline
  unfold ofOffset clamp
  simp only [hbegun, length_lineStarts, Nat.add_sub_cancel, getLast?_lineStarts, Option.getD_some,
    hline]

theorem length_le_byteLength (text : List Char) : text.length ≤ byteLength text := by
  induction text with
  | nil => exact Nat.le_refl 0
  | cons c cs ih =>
      have hpos := c.utf8Size_pos
      rw [List.length_cons, byteLength]
      omega

/-- In a short text no number is cut off. -/
theorem order_ofOffset (hshort : byteLength text < UInt32.size) (offset : Nat) :
    (ofOffset text offset).order = reading (upTo text offset) := by
  have hbefore : (upTo text offset).length < UInt32.size := by
    have hlen := length_le_byteLength (upTo text offset)
    have hle := clamp_le_byteLength text offset
    unfold clamp at hle
    omega
  have hcount : (upTo text offset).count '\n' ≤ (upTo text offset).length := List.count_le_length
  have hline : (trailing (· != '\n') (upTo text offset)).length ≤ (upTo text offset).length := by
    have hsplit := congrArg List.length
      (dropTrailing_append_trailing (· != '\n') (upTo text offset))
    rw [List.length_append] at hsplit
    omega
  rw [ofOffset_eq]
  unfold order reading
  simp only [Nat.toUInt32_eq, UInt32.toNat_ofNat_of_lt' (Nat.lt_of_le_of_lt hcount hbefore),
    UInt32.toNat_ofNat_of_lt' (Nat.lt_of_le_of_lt hline hbefore)]

/-- A greater offset has no less of the text before it. -/
theorem exists_upTo_eq_append {m n : Nat} (h : m ≤ n) (text : List Char) :
    ∃ more, upTo text n = upTo text m ++ more := by
  induction text generalizing m n with
  | nil => exact ⟨[], rfl⟩
  | cons c cs ih =>
      unfold upTo
      by_cases hm : c.utf8Size ≤ m
      · obtain ⟨more, hmore⟩ := ih (m := m - c.utf8Size) (n := n - c.utf8Size) (by omega)
        rw [if_pos hm, if_pos (Nat.le_trans hm h), hmore]
        exact ⟨more, rfl⟩
      · rw [if_neg hm]
        exact ⟨_, rfl⟩

/-- **Positions are in the order of their offsets.** -/
theorem order_le (hshort : byteLength text < UInt32.size) {m n : Nat} (h : m ≤ n) :
    (ofOffset text m).order ≤ (ofOffset text n).order := by
  obtain ⟨more, hmore⟩ := exists_upTo_eq_append h text
  rw [order_ofOffset hshort, order_ofOffset hshort, hmore]
  by_cases hnil : more = []
  · rw [hnil, List.append_nil]
  · exact le_of_lt (reading_lt_append hnil _)

/-- **A later boundary has a later position.** -/
theorem order_lt (hshort : byteLength text < UInt32.size) {b b' : Nat} (hb : IsBoundary text b)
    (hb' : IsBoundary text b') (h : b < b') :
    (ofOffset text b).order < (ofOffset text b').order := by
  obtain ⟨more, hmore⟩ := exists_upTo_eq_append (Nat.le_of_lt h) text
  have hne : more ≠ [] := by
    rintro rfl
    have hsame : clamp text b' = clamp text b := by
      unfold clamp
      rw [hmore, List.append_nil]
    rw [show clamp text b' = b' from hb', show clamp text b = b from hb] at hsame
    omega
  rw [order_ofOffset hshort, order_ofOffset hshort, hmore]
  exact reading_lt_append hne _

/-! ## Back from a position to its offset -/

/-- The offset of a position, counted out in the lines of a text: the lines before its line, each
with its line break, and the characters before its character. -/
def offsetIn (lines : List (List Char)) (p : Position) : Option Nat := do
  let line ← lines[p.line.toNat]?
  if p.character.toNat ≤ line.length then
    let earlier := (lines.take p.line.toNat).flatMap (· ++ ['\n'])
    some (byteLength (earlier ++ line.take p.character.toNat))
  else none

/-- The lines of a text, split where a beginning of it ends: the lines that end there, and the line
that it ends on. -/
theorem exists_splitOn_append (before post : List Char) :
    ∃ earlier line rest later,
      (before ++ post).splitOn '\n' = earlier ++ (line ++ rest) :: later ∧
      before = earlier.flatMap (· ++ ['\n']) ++ line ∧ '\n' ∉ line ∧
      before.count '\n' = earlier.length := by
  induction before with
  | nil =>
      cases hlines : post.splitOn '\n' with
      | nil => exact absurd hlines (List.splitOnP_ne_nil _ _)
      | cons first later => exact ⟨[], [], first, later, hlines, rfl, by simp, rfl⟩
  | cons c before ih =>
      obtain ⟨earlier, line, rest, later, hlines, hbefore, hline, hcount⟩ := ih
      unfold List.splitOn at hlines ⊢
      rw [List.cons_append, List.splitOnP_cons_eq_if_modifyHead, hlines]
      by_cases hc : c = '\n'
      · -- the text begins with a line that is empty
        subst hc
        refine ⟨[] :: earlier, line, rest, later, rfl, ?_, hline, ?_⟩
        · rw [hbefore]
          rfl
        · rw [List.count_cons_self, hcount, List.length_cons]
      · rw [if_neg (by simpa using hc), List.count_cons_of_ne hc, hcount, hbefore]
        -- it begins the first line that ends in it, or the line that it ends on
        cases earlier with
        | nil =>
            refine ⟨[], c :: line, rest, later, rfl, rfl, ?_, rfl⟩
            rw [List.mem_cons, not_or]
            exact ⟨Ne.symm hc, hline⟩
        | cons first earlier =>
            exact ⟨(c :: first) :: earlier, line, rest, later, rfl, rfl, hline, rfl⟩

/-- Behind whole lines stands the line that a text ends on. -/
theorem trailing_lines (earlier : List (List Char)) (h : '\n' ∉ line) :
    trailing (· != '\n') (earlier.flatMap (· ++ ['\n']) ++ line) = line := by
  refine (eq_trailing_iff.mpr ⟨_, rfl, ?_, ?_⟩).symm
  · intro c hc
    exact bne_iff_ne.mpr fun he => h (he ▸ hc)
  · -- in front there are whole lines, if anything
    intro c hc
    rcases List.eq_nil_or_concat earlier with rfl | ⟨front, l, rfl⟩
    · exact absurd hc (by simp)
    · rw [List.concat_eq_append, List.flatMap_append, List.flatMap_singleton,
        ← List.append_assoc, List.getLast?_concat] at hc
      rw [← Option.some.inj hc]
      rfl

/-- **A character of a line is found in the lines of the text**, at the reading of what stands before
it. -/
theorem exists_line_of_append_cons (hc : c ≠ '\n') (before post : List Char) :
    ∃ row, ((before ++ c :: post).splitOn '\n')[before.count '\n']? = some row ∧
      row[(trailing (· != '\n') before).length]? = some c := by
  obtain ⟨earlier, line, rest, later, hlines, hbefore, hline, hcount⟩ :=
    exists_splitOn_append (before ++ [c]) post
  rw [List.append_assoc, List.singleton_append] at hlines
  rw [List.count_append, List.count_singleton, if_neg (by simpa using hc), Nat.add_zero] at hcount
  -- the line that ends in the character is the one before it, and the character
  have hlast := trailing_concat (· != '\n') before c
  rw [hbefore, trailing_lines earlier hline, if_pos (by simpa using hc)] at hlast
  refine ⟨line ++ rest, ?_, ?_⟩
  · rw [hlines, hcount, List.getElem?_append_right (Nat.le_refl _), Nat.sub_self]
    rfl
  · rw [hlast, List.append_assoc, List.getElem?_append_right (Nat.le_refl _), Nat.sub_self]
    rfl

/-- **A boundary is counted out again from its position.** -/
theorem offsetIn_ofOffset (hshort : byteLength text < UInt32.size) {b : Nat}
    (hb : IsBoundary text b) : offsetIn (text.splitOn '\n') (ofOffset text b) = some b := by
  obtain ⟨earlier, line, rest, later, hlines, hbefore, hline, hcount⟩ :=
    exists_splitOn_append (upTo text b) (after text b)
  rw [upTo_append_after] at hlines
  have hlast : trailing (· != '\n') (upTo text b) = line := by
    rw [hbefore, trailing_lines earlier hline]
  have horder := order_ofOffset hshort b
  unfold order reading at horder
  rw [hlast, hcount] at horder
  obtain ⟨hl, hch⟩ := Prod.mk.inj (toLex.injective horder)
  unfold offsetIn
  rw [hl, hch, hlines, List.getElem?_append_right (Nat.le_refl _), Nat.sub_self,
    List.take_left' rfl, List.getElem?_cons_zero]
  show (if line.length ≤ (line ++ rest).length then _ else none : Option Nat) = some b
  rw [if_pos (by simp), List.take_left' rfl, ← hbefore]
  exact congrArg some hb

/-! ## Positions -/

/--
**The position of an offset.** In a text of fewer than `2 ^ 32` bytes an offset is moved back to the
greatest boundary at or before it. Its line is the number of line breaks before that boundary, and
its character the number of characters behind the last of them. So positions are in the order of
their offsets, and a range never ends before it begins; different boundaries have different
positions; and a boundary is counted out again from its position in the lines of the text. The
search in the table of lines, with every step checked, finds the same position.
-/
theorem position_counts (text : List Char) (hshort : byteLength text < UInt32.size) :
    (∀ offset,
      let b := clamp text offset
      IsGreatest {b | IsBoundary text b ∧ b ≤ min offset (byteLength text)} b ∧
      (∃ before, slice? text 0 b = some before ∧
        (ofOffset text offset).line.toNat = before.count '\n' ∧
        ∃ line, LastLine before line ∧ (ofOffset text offset).character.toNat = line.length) ∧
      Checked.position text offset = some (ofOffset text offset)) ∧
    (∀ m n, m ≤ n → (ofOffset text m).order ≤ (ofOffset text n).order ∧
      (rangeOf text m n).start.order ≤ (rangeOf text m n).stop.order) ∧
    (∀ b b', IsBoundary text b → IsBoundary text b' → ofOffset text b = ofOffset text b' →
      b = b') ∧
    ∀ b, IsBoundary text b → offsetIn (text.splitOn '\n') (ofOffset text b) = some b := by
  refine ⟨fun offset => ⟨isGreatest_clamp text offset, ?_, Checked.position_eq text offset⟩, ?_, ?_,
    fun b => offsetIn_ofOffset hshort⟩
  · have horder := order_ofOffset hshort offset
    obtain ⟨hline, hcharacter⟩ := Prod.mk.inj (toLex.injective horder)
    refine ⟨upTo text offset, ?_, hline, _, lastLine_iff.mpr rfl, hcharacter⟩
    have hslice := slice?_append [] (upTo text offset) (after text offset)
    rw [List.nil_append, upTo_append_after, byteLength, Nat.zero_add] at hslice
    exact hslice
  · intro m n hle
    exact ⟨order_le hshort hle, order_le hshort hle⟩
  · intro b b' hb hb' hsame
    rcases Nat.lt_trichotomy b b' with hlt | he | hlt
    · exact absurd (order_lt hshort hb hb' hlt) (by rw [hsame]; exact lt_irrefl _)
    · exact he
    · exact absurd (order_lt hshort hb' hb hlt) (by rw [hsame]; exact lt_irrefl _)

/-- Two letters of two bytes each, one on either line; the offset five is inside the second one. -/
theorem position_counts_two_lines :
    byteLength "é\nxü".toList < UInt32.size ∧
      ofOffset "é\nxü".toList 5 = ⟨1, 1⟩ ∧
      offsetIn ("é\nxü".toList.splitOn '\n') ⟨1, 1⟩ = some 4 ∧
      Checked.position "é\nxü".toList 5 = some ⟨1, 1⟩ := by
  have hshort : byteLength "é\nxü".toList < UInt32.size := by decide
  obtain ⟨hread, -, -, hback⟩ := position_counts "é\nxü".toList hshort
  have hfive : ofOffset "é\nxü".toList 5 = ⟨1, 1⟩ := by decide
  have hfour : ofOffset "é\nxü".toList 4 = ⟨1, 1⟩ := by decide
  refine ⟨hshort, hfive, ?_, ?_⟩
  · rw [← hfour]
    exact hback 4 (by decide)
  · rw [← hfive]
    exact (hread 5).2.2

end LogQL.Position
