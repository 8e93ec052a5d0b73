import LogQL.Proofs.Text.Checked
import Mathlib.Order.Bounds.Basic

/-!
# Where looking backwards stops

An editor looks back from a cursor three times: to a boundary of the text, over the word under way,
and to the start of the line. Each look is described here by the bytes of the text, in a way that
leaves only one place to stop: the greatest boundary that is not behind the cursor, the one offset
with a word from it to the cursor and none before it (`StartsWord`), the longest end without a line
break (`LongestWithout`).

Going back to a boundary is also short. A character takes four bytes at most, so no offset in a text
is more than three bytes behind a boundary (`min_le_clamp_add_three`), and a loop that goes back byte
by byte needs no more rounds than that (`backUpCounted_clamp`).
-/

namespace LogQL.Text

/-! ## Back to a boundary -/

variable {text : List Char} {m n : Nat}

/-- An offset is moved back to the last boundary in the text that is no greater. -/
theorem isGreatest_clamp (text : List Char) (n : Nat) :
    IsGreatest {b | IsBoundary text b ∧ b ≤ min n (byteLength text)} (clamp text n) := by
  refine ⟨⟨isBoundary_clamp text n, ?_⟩, ?_⟩
  · exact Nat.le_min.mpr ⟨clamp_le text n, clamp_le_byteLength text n⟩
  · intro b hb
    exact le_clamp hb.1 (Nat.le_min.mp hb.2).1

theorem clamp_mono (h : m ≤ n) : clamp text m ≤ clamp text n :=
  le_clamp (isBoundary_clamp text m) (Nat.le_trans (clamp_le text m) h)

/-- **In a text the next boundary back is at most three bytes away.** -/
theorem min_le_clamp_add_three (text : List Char) (n : Nat) :
    min n (byteLength text) ≤ clamp text n + 3 := by
  induction text generalizing n with
  | nil => exact Nat.le_trans (Nat.min_le_right n 0) (Nat.zero_le _)
  | cons x xs ih =>
      rw [clamp, upTo, byteLength]
      by_cases hle : x.utf8Size ≤ n
      · -- the offset is as far into the rest as it is behind the first character
        have hrest := ih (n - x.utf8Size)
        rw [clamp] at hrest
        rw [if_pos hle, byteLength]
        omega
      · have hfour := x.utf8Size_le_four
        rw [if_neg hle, byteLength]
        omega

end LogQL.Text

namespace LogQL.Checked

variable {bs : List UInt8} {n stop cursor start start' : Nat}

/-- Go back as `backUp` does, and count the rounds: how many there were, and where they ended. -/
def backUpCounted (bs : List UInt8) : Nat → Option (Nat × Nat)
  | 0 => if Text.isBoundaryByte bs 0 then some (0, 0) else none
  | n + 1 =>
    if Text.isBoundaryByte bs (n + 1) then some (0, n + 1)
    else (backUpCounted bs n).map fun (rounds, stop) => (rounds + 1, stop)

/-- Counting changes nothing, and each round takes one byte. -/
theorem backUpCounted_of_backUp (h : backUp bs n = some stop) :
    ∃ rounds, backUpCounted bs n = some (rounds, stop) ∧ n = stop + rounds := by
  induction n with
  | zero =>
      rw [backUp] at h
      split at h
      · rename_i hb
        obtain rfl := Option.some.inj h
        exact ⟨0, if_pos hb, rfl⟩
      · cases h
  | succ n ih =>
      rw [backUp] at h
      rw [backUpCounted]
      split at h
      · rename_i hb
        obtain rfl := Option.some.inj h
        exact ⟨0, if_pos hb, rfl⟩
      · rename_i hb
        obtain ⟨rounds, hrun, hn⟩ := ih h
        exact ⟨rounds + 1, by rw [if_neg hb, hrun]; rfl, by omega⟩

/-- **Three rounds are enough** to go back to a boundary from any offset in a text. -/
theorem backUpCounted_clamp (text : List Char) (n : Nat) :
    ∃ rounds ≤ 3, backUpCounted (Text.bytes text) (min n (Text.bytes text).length) =
      some (rounds, Text.clamp text n) := by
  obtain ⟨rounds, hrun, hn⟩ := backUpCounted_of_backUp (clamp_eq text n)
  have hclose := Text.min_le_clamp_add_three text n
  rw [Text.length_bytes] at hn
  exact ⟨rounds, by omega, hrun⟩

/-! ## Back over a word -/

/-- All bytes from one offset to another continue an identifier, and none stands before them. -/
structure StartsWord (bs : List UInt8) (cursor start : Nat) : Prop where
  le : start ≤ cursor
  inside : ∀ i, start ≤ i → i < cursor → ∃ b, bs[i]? = some b ∧ isWordByte b = true
  before : start = 0 ∨ ∃ b, bs[start - 1]? = some b ∧ isWordByte b = false

/-- **The loop over a word stops where one starts.** What it has passed is kept by each round. -/
theorem startsWord_wordStart (h : cursor ≤ bs.length) :
    ∃ start, wordStart bs cursor = some start ∧ StartsWord bs cursor start := by
  induction cursor with
  | zero => exact ⟨0, rfl, Nat.le_refl 0, fun i _ hi => absurd hi (Nat.not_lt_zero i), Or.inl rfl⟩
  | succ cursor ih =>
      have hget : bs[cursor]? = some bs[cursor] := List.getElem?_eq_getElem h
      rw [wordStart, hget, Option.bind_eq_bind, Option.bind_some]
      by_cases hb : isWordByte bs[cursor] = true
      · obtain ⟨start, hstart, hword⟩ := ih (Nat.le_of_succ_le h)
        refine ⟨start, by rw [if_pos hb, hstart], Nat.le_succ_of_le hword.le, ?_, hword.before⟩
        intro i hi hlt
        rcases Nat.lt_or_eq_of_le (Nat.le_of_lt_succ hlt) with hlt | rfl
        · exact hword.inside i hi hlt
        · exact ⟨_, hget, hb⟩
      · refine ⟨cursor + 1, by rw [if_neg hb], Nat.le_refl _, fun i hi hlt => ?_, Or.inr ?_⟩
        · omega
        · exact ⟨_, hget, Bool.eq_false_iff.mpr hb⟩

/-- Of two places where the word could start, the later one has a byte of the word before it. -/
theorem StartsWord.not_lt (h : StartsWord bs cursor start) (h' : StartsWord bs cursor start') :
    ¬start < start' := by
  intro hlt
  have hle := h'.le
  rcases h'.before with hzero | ⟨b, hb, hnot⟩
  · omega
  · obtain ⟨b', hb', hword⟩ := h.inside (start' - 1) (by omega) (by omega)
    obtain rfl : b = b' := Option.some.inj (hb.symm.trans hb')
    exact Bool.false_ne_true (hnot.symm.trans hword)

theorem StartsWord.unique (h : StartsWord bs cursor start) (h' : StartsWord bs cursor start') :
    start = start' :=
  Nat.le_antisymm (Nat.not_lt.mp (h'.not_lt h)) (Nat.not_lt.mp (h.not_lt h'))

end LogQL.Checked

namespace LogQL.Text

variable {text : List Char} {c s : Nat}

theorem wordStart_eq_iff (hc : IsBoundary text c) :
    wordStart text c = s ↔ Checked.StartsWord (bytes text) c s := by
  have hlen : c ≤ (bytes text).length := by
    rw [length_bytes, ← show clamp text c = c from hc]
    exact clamp_le_byteLength text c
  obtain ⟨start, hstart, hword⟩ := Checked.startsWord_wordStart hlen
  rw [Checked.wordStart_eq hc, Option.some.injEq] at hstart
  subst hstart
  exact ⟨fun h => h ▸ hword, hword.unique⟩

/-! ## Back to the start of the line -/

/-- An end of a list in which `d` does not stand, and of which all others of the kind are ends. -/
structure LongestWithout {α : Type} (d : α) (xs rest : List α) : Prop where
  suffix : rest <:+ xs
  without : d ∉ rest
  longest : ∀ other, other <:+ xs → d ∉ other → other <:+ rest

theorem LongestWithout.whole {α : Type} {d : α} {xs : List α} (h : d ∉ xs) :
    LongestWithout d xs xs :=
  ⟨List.suffix_rfl, h, fun _ hother _ => hother⟩

theorem LongestWithout.behind {α : Type} {d : α} {rest : List α} (front : List α) (h : d ∉ rest) :
    LongestWithout d (front ++ d :: rest) rest := by
  refine ⟨⟨front ++ [d], by simp⟩, h, fun other hother hd => ?_⟩
  have hrest := List.suffix_append front (d :: rest)
  rcases List.suffix_or_suffix_of_suffix hother hrest with hin | hin
  · rcases List.suffix_cons_iff.mp hin with rfl | hin
    · exact absurd List.mem_cons_self hd
    · exact hin
  · -- an end that reaches over the `d` has it
    exact absurd (hin.mem List.mem_cons_self) hd

/-- A line break takes one byte, and no other character has that byte. -/
theorem mem_bytes_lineBreak : 0x0A ∈ bytes text ↔ '\n' ∈ text := by
  have hbelow : '\n'.toNat < 0x80 := by decide
  have hcount : (bytes text).count 0x0A = text.count '\n' := count_bytes hbelow text
  rw [← List.count_pos_iff, hcount, List.count_pos_iff]

/-- **The line is the longest end without a line break**, of the characters and of the bytes. -/
theorem longestWithout_lineBefore (text : List Char) (c : Nat) :
    LongestWithout '\n' (upTo text c) (lineBefore text c) ∧
      LongestWithout 0x0A (bytes (upTo text c)) (bytes (lineBefore text c)) := by
  have hline : LastLine (upTo text c) (lineBefore text c) := lastLine_iff.mpr rfl
  rcases hline with ⟨front, hsplit, hnone⟩ | ⟨hnone, hall⟩
  · have hbytes : bytes (upTo text c) = bytes front ++ 0x0A :: bytes (lineBefore text c) := by
      rw [hsplit, bytes_append, bytes_cons]
      rfl
    rw [hbytes, hsplit]
    exact ⟨.behind _ hnone, .behind _ (mem_bytes_lineBreak.not.mpr hnone)⟩
  · rw [hall]
    exact ⟨.whole hnone, .whole (mem_bytes_lineBreak.not.mpr hnone)⟩

/-- The bytes before a boundary are those of the characters before it. -/
theorem bytes_upTo (hc : IsBoundary text c) : bytes (upTo text c) = (bytes text).take c := by
  have hlen : (bytes (upTo text c)).length = c := (length_bytes _).trans hc
  have hsplit : bytes text = bytes (upTo text c) ++ bytes (after text c) := by
    rw [← bytes_append, upTo_append_after]
  rw [hsplit, List.take_left' hlen]

/-! ## The cuts -/

/--
**The cuts before a cursor, told by the bytes.** A cursor is moved back to the greatest boundary
that is neither behind it nor behind the end, in three rounds at most. So a cursor that has been
moved back stays, and a later cursor never comes to lie before an earlier one. From a boundary the
start of the word is a boundary too, and the only offset from which on all bytes are letters, digits
or underscores and before which there is none; and the line is the longest end of what stands before
the boundary that has no line break. The loops over the bytes come to the same, and no step of them
goes wrong.
-/
theorem backward_cuts (text : List Char) :
    (∀ cursor,
      IsGreatest {b | isBoundaryByte (bytes text) b = true ∧ b ≤ min cursor (bytes text).length}
        (clamp text cursor) ∧
      clamp text (clamp text cursor) = clamp text cursor ∧
      ∃ rounds ≤ 3, Checked.backUpCounted (bytes text) (min cursor (bytes text).length) =
        some (rounds, clamp text cursor)) ∧
    Monotone (clamp text) ∧
    ∀ c, isBoundaryByte (bytes text) c = true →
      (isBoundaryByte (bytes text) (wordStart text c) = true ∧
        (∀ s, wordStart text c = s ↔ Checked.StartsWord (bytes text) c s) ∧
        Checked.wordStart (bytes text) c = some (wordStart text c)) ∧
      bytes (upTo text c) = (bytes text).take c ∧
        LongestWithout '\n' (upTo text c) (lineBefore text c) ∧
        LongestWithout 0x0A ((bytes text).take c) (bytes (lineBefore text c)) ∧
        Checked.lineBefore text c = some (lineBefore text c) := by
  refine ⟨fun cursor => ⟨?_, isBoundary_clamp text cursor, Checked.backUpCounted_clamp text cursor⟩,
    fun m n => clamp_mono, fun c hbyte => ?_⟩
  · have hgreatest := isGreatest_clamp text cursor
    simpa only [isBoundaryByte_iff, length_bytes] using hgreatest
  · have hc : IsBoundary text c := isBoundaryByte_iff.mp hbyte
    obtain ⟨hline, hlineBytes⟩ := longestWithout_lineBefore text c
    rw [bytes_upTo hc] at hlineBytes
    exact ⟨⟨isBoundaryByte_iff.mpr (isBoundary_wordStart text c), fun s => wordStart_eq_iff hc,
      Checked.wordStart_eq hc⟩, bytes_upTo hc, hline, hlineBytes, Checked.lineBefore_eq hc⟩

-- three rounds are needed for an offset right before the last byte of a character with four of them
example : Checked.backUpCounted (bytes "a😀".toList) 4 = some (3, 1) := by decide

end LogQL.Text
