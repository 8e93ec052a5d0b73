import LogQL.Diagnostic.Position
import LogQL.Proofs.Text.Checked

/-!
# Lines and characters, step by step

The position of an offset, with every step checked as in `Text.Checked`. The offset is moved back
onto a boundary, the table of lines is searched for it, and the text from the beginning of its line
up to it is cut off and counted. `none` is a run in which a check fails, and there is none
(`position_eq`).

The search gives the place of the offset in the table, or else the place where it would have to be
put. In the second case the line is the one before, and there is one: the table begins with zero, so
an offset that is not in it does not belong in front. That the line can be cut off is so because a
line break takes one byte.
-/

namespace LogQL.Checked

variable {text : List Char} {n : Nat} {xs : List Nat}

/-- The offsets at which lines begin: zero, and one behind each line break. -/
def lineStarts (text : List Char) : List Nat :=
  0 :: ((Text.byteChars 0 text).filter (·.2 == '\n')).map (·.1 + 1)

/-- The place of a number in a list that runs upwards, or else the place at which it may be put in
so that the list still does. -/
def search (xs : List Nat) (n : Nat) : Except Nat Nat :=
  let below := (xs.takeWhile (· < n)).length
  if xs[below]? = some n then .ok below else .error below

/-- A difference, if it is not negative. -/
def sub (a b : Nat) : Option Nat := if b ≤ a then some (a - b) else none

/-- The line that holds an offset, where these are the offsets at which lines begin. -/
def lineOf (starts : List Nat) (offset : Nat) : Option Nat :=
  match search starts offset with
  | .ok line => some line
  | .error next => sub next 1

/-- The position of an offset. -/
def position (text : List Char) (offset : Nat) : Option Position := do
  let offset ← clamp text offset
  let line ← lineOf (lineStarts text) offset
  let start ← (lineStarts text)[line]?
  let before ← slice text start offset
  return ⟨line.toUInt32, before.length.toUInt32⟩

/-! ## The table of lines -/

theorem lineStarts_located (start : Nat) (text : List Char) :
    Position.lineStarts start text =
      start :: ((Text.located start text).filter (·.2 == '\n')).map (·.1 + 1) := by
  induction text generalizing start with
  | nil => rfl
  | cons c cs ih =>
      rw [Position.lineStarts, ih, ih, Text.located]
      by_cases hc : c = '\n'
      · subst hc
        rfl
      · rw [if_neg hc, List.filter_cons, if_neg (by simpa using hc)]

theorem lineStarts_eq (text : List Char) : lineStarts text = Position.lineStarts 0 text := by
  have hascii : ∀ c : Char, (c == '\n') = true → c.toNat < 0x80 := by
    intro c hc
    rw [beq_iff_eq.mp hc]
    decide
  rw [lineStarts, Text.filter_byteChars hascii, lineStarts_located]

/-- Lines begin further and further on. -/
theorem lineStarts_pairwise (text : List Char) : (lineStarts text).Pairwise (· < ·) := by
  rw [lineStarts_eq, lineStarts_located, List.pairwise_cons]
  constructor
  · intro n hn
    obtain ⟨m, -, rfl⟩ := List.mem_map.mp hn
    exact Nat.succ_pos m.1
  · have hplaces := (Text.located_pairwise 0 text).filter (·.2 == '\n')
    exact hplaces.map _ fun m m' h => Nat.succ_lt_succ h

/-- **Every line begins at a boundary.** -/
theorem isBoundary_of_mem_lineStarts (h : n ∈ lineStarts text) : Text.IsBoundary text n := by
  rw [lineStarts_eq, lineStarts_located] at h
  rcases List.mem_cons.mp h with rfl | h
  · exact Text.isBoundary_iff.mpr ⟨[], text, rfl, rfl⟩
  · obtain ⟨⟨place, c⟩, hm, rfl⟩ := List.mem_map.mp h
    obtain ⟨hm, hc⟩ := List.mem_filter.mp hm
    obtain rfl : c = '\n' := by simpa using hc
    obtain ⟨pre, post, rfl, rfl⟩ := Text.mem_located.mp hm
    refine Text.isBoundary_iff.mpr ⟨pre ++ ['\n'], post, by simp, ?_⟩
    rw [Text.byteLength_append, Nat.zero_add]
    rfl

/-! ## The search -/

/-- The numbers up to `n` are those below it, and `n` if the list has it. -/
theorem takeWhile_le_eq (hsorted : xs.Pairwise (· < ·)) :
    xs.takeWhile (· ≤ n) = xs.takeWhile (· < n) ++
      if xs[(xs.takeWhile (· < n)).length]? = some n then [n] else [] := by
  induction xs with
  | nil => rfl
  | cons x xs ih =>
      obtain ⟨hx, hxs⟩ := List.pairwise_cons.mp hsorted
      rcases Nat.lt_trichotomy x n with hlt | rfl | hgt
      · have hle : x ≤ n := Nat.le_of_lt hlt
        simp only [List.takeWhile_cons, hlt, hle, decide_true, if_true, List.length_cons,
          List.getElem?_cons_succ, List.cons_append, ih hxs]
      · -- everything behind `n` is greater
        have hrest : xs.takeWhile (· ≤ x) = [] := by
          cases xs with
          | nil => rfl
          | cons y ys =>
              have hy : ¬y ≤ x := Nat.not_le.mpr (hx y List.mem_cons_self)
              simp [hy]
        simp [hrest]
      · have hnlt : ¬x < n := Nat.not_lt.mpr (Nat.le_of_lt hgt)
        have hnle : ¬x ≤ n := Nat.not_le.mpr hgt
        simp [hnlt, hnle, Nat.ne_of_gt hgt]

/-- **The line found is the last one that begins no later**, if the first one does not. -/
theorem lineOf_eq (hsorted : xs.Pairwise (· < ·)) (hhead : ∃ x, xs.head? = some x ∧ x ≤ n) :
    ∃ start, lineOf xs n = some ((xs.takeWhile (· ≤ n)).length - 1) ∧
      xs[(xs.takeWhile (· ≤ n)).length - 1]? = some start ∧
      (xs.takeWhile (· ≤ n)).getLast? = some start := by
  have hne : xs.takeWhile (· ≤ n) ≠ [] := by
    obtain ⟨x, hx, hle⟩ := hhead
    obtain ⟨rest, rfl⟩ := List.head?_eq_some_iff.mp hx
    simp [hle]
  have hpos := List.length_pos_iff.mpr hne
  have hlast := List.getLast?_eq_some_getLast hne
  refine ⟨_, ?_, ?_, hlast⟩
  · have hbegun := takeWhile_le_eq (n := n) hsorted
    rw [lineOf, search]
    by_cases hfound : xs[(xs.takeWhile (· < n)).length]? = some n
    · rw [if_pos hfound] at hbegun ⊢
      rw [hbegun, List.length_append, List.length_singleton, Nat.add_sub_cancel]
    · -- the place to put it in is not the first one
      rw [if_neg hfound, List.append_nil] at hbegun
      rw [hbegun] at hpos ⊢
      rw [if_neg hfound]
      exact if_pos hpos
  · obtain ⟨rest, hrest⟩ := List.takeWhile_prefix (l := xs) (· ≤ n)
    have hlt : (xs.takeWhile (· ≤ n)).length - 1 < (xs.takeWhile (· ≤ n)).length := by omega
    have hget := @List.getElem?_append_left _ _ rest _ hlt
    rw [List.getLast?_eq_getElem?] at hlast
    rw [hrest, hlast] at hget
    exact hget

/-! ## Positions -/

/-- **Every offset has a position**, on the way to which no step fails. -/
theorem position_eq (text : List Char) (offset : Nat) :
    position text offset = some (Position.ofOffset text offset) := by
  have hhead : ∃ x, (lineStarts text).head? = some x ∧ x ≤ Text.clamp text offset :=
    ⟨0, rfl, Nat.zero_le _⟩
  obtain ⟨start, hline, hget, hlast⟩ := lineOf_eq (lineStarts_pairwise text) hhead
  have hmem : start ∈ lineStarts text := List.mem_of_getElem? hget
  have hle : start ≤ Text.clamp text offset := by
    have hbegun := List.mem_of_getLast? hlast
    simpa using List.all_eq_true.mp List.all_takeWhile start hbegun
  obtain ⟨before, hbefore⟩ := Text.exists_slice? hle (isBoundary_of_mem_lineStarts hmem)
    (Text.isBoundary_clamp text offset)
  rw [position, clamp_eq, Position.ofOffset, ← lineStarts_eq]
  simp only [Option.bind_eq_bind, Option.bind_some, hline, hget, slice_eq, hbefore, hlast,
    Option.getD_some]
  rfl

end LogQL.Checked
