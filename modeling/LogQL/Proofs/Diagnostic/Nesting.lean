import LogQL.Diagnostic.Brackets

/-!
# Well-nested words of brackets

`Nested fits w` is the grammar: a word is empty, or an opening bracket, a nested word, a closing
bracket that `fits` the opening one, and a nested word again. With `Fits` it says that the shapes
agree; with `AnyShape` only the nesting counts.

A word is nested exactly when a stack works it off without a rest. That is `nestsFrom`, which makes
the grammar decidable. Going from the stack to the grammar needs a statement about every stack: a
word that works off `o :: st` is a nested word, a closing bracket for `o`, and a word that works off
`st` (`Closes`).
-/

namespace LogQL.Diagnostic

/-- An opening bracket. -/
def isOpening (c : Char) : Bool := (closing? c).isSome

/-- A bracket, opening or closing. -/
def isBracket (c : Char) : Bool := isOpening c || isClosing c

theorem closing?_eq_some {o c : Char} (h : closing? o = some c) :
    o = '{' ∧ c = '}' ∨ o = '(' ∧ c = ')' ∨ o = '[' ∧ c = ']' := by
  unfold closing? at h
  split at h
  · exact Or.inl ⟨rfl, (Option.some.inj h).symm⟩
  · exact Or.inr (Or.inl ⟨rfl, (Option.some.inj h).symm⟩)
  · exact Or.inr (Or.inr ⟨rfl, (Option.some.inj h).symm⟩)
  · exact absurd h (by simp)

theorem isOpening_cases {c : Char} (h : isOpening c = true) : c = '{' ∨ c = '(' ∨ c = '[' := by
  obtain ⟨d, hd⟩ := Option.isSome_iff_exists.mp h
  rcases closing?_eq_some hd with h | h | h <;> simp [h.1]

theorem isClosing_cases {c : Char} (h : isClosing c = true) : c = '}' ∨ c = ')' ∨ c = ']' := by
  simp only [isClosing, Bool.or_eq_true, beq_iff_eq] at h
  rcases h with (h | h) | h <;> simp [h]

/-- No bracket both opens and closes. -/
theorem not_isOpening_of_isClosing {c : Char} (h : isClosing c = true) : isOpening c = false := by
  rcases isClosing_cases h with rfl | rfl | rfl <;> decide

theorem isBracket_of_isOpening {c : Char} (h : isOpening c = true) : isBracket c = true := by
  rw [isBracket, h]; rfl

theorem isBracket_of_isClosing {c : Char} (h : isClosing c = true) : isBracket c = true := by
  rw [isBracket, h, Bool.or_true]

theorem isClosing_of_not_isOpening {c : Char} (h : isBracket c = true) (ho : isOpening c ≠ true) :
    isClosing c = true := by
  rcases Bool.or_eq_true_iff.mp h with h | h
  · exact absurd h ho
  · exact h

/-- Every bracket takes one byte. -/
theorem utf8Size_of_isBracket {c : Char} (h : isBracket c = true) : c.utf8Size = 1 := by
  rcases Bool.or_eq_true_iff.mp h with h | h
  · rcases isOpening_cases h with rfl | rfl | rfl <;> decide
  · rcases isClosing_cases h with rfl | rfl | rfl <;> decide

/-! ## The grammar -/

/-- The shapes of two brackets agree. -/
def Fits (o c : Char) : Prop := closing? o = some c

/-- The shapes of two brackets are not looked at. -/
def AnyShape (_ _ : Char) : Prop := True

instance (o c : Char) : Decidable (Fits o c) := inferInstanceAs (Decidable (closing? o = some c))

instance (o c : Char) : Decidable (AnyShape o c) := inferInstanceAs (Decidable True)

/-- A word that consists of pairs of brackets, each pair around a word of the same kind. -/
inductive Nested (fits : Char → Char → Prop) : List Char → Prop where
  | nil : Nested fits []
  | pair {o c : Char} {inner rest : List Char} :
      isOpening o = true → isClosing c = true → fits o c →
      Nested fits inner → Nested fits rest → Nested fits (o :: inner ++ c :: rest)

section

variable {fits : Char → Char → Prop}

theorem Nested.append {xs ys : List Char} (hx : Nested fits xs) (hy : Nested fits ys) :
    Nested fits (xs ++ ys) := by
  induction hx with
  | nil => exact hy
  | pair ho hc hf hi _ _ ih =>
      rw [List.append_assoc, List.cons_append]
      exact Nested.pair ho hc hf hi ih

/-- A nested word, closed by a bracket that fits the opening one in front. -/
theorem Nested.wrap {o c : Char} {xs : List Char} (ho : isOpening o = true)
    (hc : isClosing c = true) (hf : fits o c) (hx : Nested fits xs) :
    Nested fits (o :: xs ++ [c]) :=
  Nested.pair ho hc hf hx Nested.nil

/-! ## Deciding it with a stack -/

/-- Work off a word against the opening brackets in front of it, the innermost first. -/
def nestsFrom (fits : Char → Char → Prop) [∀ o c, Decidable (fits o c)] :
    (opened : List Char) → List Char → Bool
  | opened, [] => opened.isEmpty
  | opened, x :: xs =>
    if isOpening x then nestsFrom fits (x :: opened) xs
    else if isClosing x then
      match opened with
      | [] => false
      | o :: outer => if fits o x then nestsFrom fits outer xs else false
    else false

/-- A word closes the brackets of a stack, each after a nested word, and is nested from there. -/
def Closes (fits : Char → Char → Prop) : (opened : List Char) → List Char → Prop
  | [], w => Nested fits w
  | o :: outer, w =>
    ∃ inner c rest, w = inner ++ c :: rest ∧ Nested fits inner ∧ isClosing c = true ∧ fits o c ∧
      Closes fits outer rest

/-- A pair around a nested word may be put in front of a word that closes a stack. -/
theorem Closes.pair_append {o c : Char} {inner rest : List Char} (ho : isOpening o = true)
    (hc : isClosing c = true) (hf : fits o c) (hi : Nested fits inner) :
    ∀ {opened : List Char}, Closes fits opened rest →
      Closes fits opened (o :: (inner ++ c :: rest))
  | [], h => Nested.pair ho hc hf hi h
  | _ :: _, ⟨inner', c', rest', hw, hi', hc', hf', h⟩ =>
      ⟨o :: inner ++ c :: inner', c', rest', by rw [hw]; simp, Nested.pair ho hc hf hi hi',
        hc', hf', h⟩

variable [∀ o c, Decidable (fits o c)]

theorem nestsFrom_opening {o : Char} (ho : isOpening o = true) (opened w : List Char) :
    nestsFrom fits opened (o :: w) = nestsFrom fits (o :: opened) w := by
  rw [nestsFrom.eq_def]
  exact if_pos ho

theorem nestsFrom_closing {o c : Char} (hc : isClosing c = true) (hf : fits o c)
    (opened w : List Char) : nestsFrom fits (o :: opened) (c :: w) = nestsFrom fits opened w := by
  rw [nestsFrom.eq_def]
  dsimp only
  rw [if_neg (by simp [not_isOpening_of_isClosing hc]), if_pos hc, if_pos hf]

theorem closes_of_nestsFrom {opened w : List Char} (h : nestsFrom fits opened w = true) :
    Closes fits opened w := by
  induction w generalizing opened with
  | nil =>
      cases opened with
      | nil => exact Nested.nil
      | cons o outer => exact absurd h (by simp [nestsFrom])
  | cons x xs ih =>
      rw [nestsFrom.eq_def] at h
      dsimp only at h
      split at h
      · -- what closes the new bracket first makes a pair in front of what closes the stack
        rename_i hx
        obtain ⟨inner, c, rest, rfl, hi, hc, hf, hrest⟩ := ih h
        exact Closes.pair_append hx hc hf hi hrest
      · split at h
        · rename_i hx
          cases opened with
          | nil => exact absurd h (by simp)
          | cons o outer =>
              dsimp only at h
              split at h
              · rename_i hf
                exact ⟨[], x, xs, rfl, Nested.nil, hx, hf, ih h⟩
              · exact absurd h (by simp)
        · exact absurd h (by simp)

/-- A nested word leaves the stack as it was. -/
theorem nestsFrom_append {w : List Char} (h : Nested fits w) (opened rest : List Char) :
    nestsFrom fits opened (w ++ rest) = nestsFrom fits opened rest := by
  induction h generalizing opened rest with
  | nil => rfl
  | pair ho hc hf _ _ ihi iho =>
      rw [List.append_assoc, List.cons_append, nestsFrom_opening ho, ihi, List.cons_append,
        nestsFrom_closing hc hf, iho]

/-- **A word is nested exactly when the empty stack works it off.** -/
theorem nestsFrom_nil_iff {w : List Char} : nestsFrom fits [] w = true ↔ Nested fits w := by
  constructor
  · exact closes_of_nestsFrom
  · intro h
    have := nestsFrom_append h [] []
    rw [List.append_nil] at this
    rw [this]; rfl

instance (w : List Char) : Decidable (Nested fits w) := decidable_of_iff _ nestsFrom_nil_iff

end

end LogQL.Diagnostic
