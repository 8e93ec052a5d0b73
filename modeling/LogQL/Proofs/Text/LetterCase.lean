import LogQL.Text.LowerCase

/-!
# Letter case

Lower case changes the 26 capital letters of ASCII and, beyond ASCII, what a table has. So a
character is told from its lower case form unless that is a letter, and the first character of a
text decides how the text begins in lower case.
-/

namespace LogQL.Text

variable {c d : Char}

theorem toLower_cases (c : Char) :
    c.toLower = c ∨ c.toLower.toNat = c.toNat + 32 ∧ 65 ≤ c.toNat ∧ c.toNat ≤ 90 := by
  unfold Char.toLower
  split
  · rename_i h
    obtain ⟨hlow, hhigh⟩ := h
    have hlow : 65 ≤ c.val.toNat := UInt32.le_iff_toNat_le.mp hlow
    have hhigh : c.val.toNat ≤ 90 := UInt32.le_iff_toNat_le.mp hhigh
    refine Or.inr ⟨?_, hlow, hhigh⟩
    show (c.val + ('a'.val - 'A'.val)).toNat = c.val.toNat + 32
    rw [UInt32.toNat_add]
    have h32 : ('a'.val - 'A'.val).toNat = 32 := rfl
    omega
  · exact Or.inl rfl

/-- What is no small letter has one capital form, itself. -/
theorem eq_of_toLower_eq (h : c.toLower = d) (hd : d.toNat < 97 ∨ 122 < d.toNat) : c = d := by
  rcases toLower_cases c with hc | ⟨hc, hlow, hhigh⟩
  · exact hc.symm.trans h
  · rw [h] at hc
    omega

/-- A capital letter of ASCII becomes another one of ASCII. -/
theorem lt_of_toLower_eq (h : c.toLower = d) (hd : d.toNat < 0x80) : c.toNat < 0x80 := by
  rcases toLower_cases c with hc | ⟨-, -, hhigh⟩
  · rwa [hc.symm.trans h]
  · omega

theorem isDigit_iff : c.isDigit = true ↔ 48 ≤ c.toNat ∧ c.toNat ≤ 57 := by
  simp only [Char.isDigit, Bool.and_eq_true, decide_eq_true_eq, ge_iff_le,
    UInt32.le_iff_toNat_le]
  rfl

theorem toLower_of_isDigit (h : c.isDigit = true) : c.toLower = c := by
  rcases toLower_cases c with hc | ⟨-, hlow, -⟩
  · exact hc
  · have hhigh := (isDigit_iff.mp h).2
    omega

/-- A text that begins in ASCII begins with the same letter in lower case. -/
theorem head?_lower {s : String} {rest : List Char} (hs : s.toList = c :: rest)
    (hc : c.toNat < 0x80) : (lower s).toList.head? = some c.toLower := by
  -- the one letter with a form of its own at the end of a word lies beyond ASCII
  have hsigma : (c == '\u03A3') = false := by
    rw [beq_eq_false_iff_ne]
    rintro rfl
    exact absurd hc (by decide)
  rw [lower, String.toList_ofList, hs, lowerAfter, hsigma, lowerChar, if_pos hc]
  rfl

end LogQL.Text
