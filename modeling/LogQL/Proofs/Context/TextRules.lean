import LogQL.Context.Classify
import LogQL.Proofs.Text.Trailing

/-!
# What the text before a cursor calls for

`Shows before place isExplicit` says by splits of the text alone what a request without a tree is
answered. A name is due inside a brace when that brace has no `=` yet or the line ends in a comma;
a value is due when the line ends in a word and `=`; otherwise the word under way decides.

The brace is looked for in the whole text and the comma and the `=` in the last line only. The two
meet at the end of the text: a line whose last character is an open brace shows the same brace, so
that brace is still empty (`not_mem_of_endsVisibly`), and a word before a final `=` holds no brace,
so all of it is after the brace (`suffix_inner`).
-/

namespace LogQL.Context

open Text

/-- `inner` follows the last open brace of the text, and closes none. -/
def InBraces (before inner : List Char) : Prop := AfterLast '{' before inner ∧ '}' ∉ inner

/-- The line ends in the word `label` and an equals sign. -/
def Assigns (line label : List Char) : Prop :=
  label ≠ [] ∧ ∃ front, line = front ++ ['='] ∧ WordRun front label

/-- A label name is due. -/
def NameDue (before line : List Char) : Prop :=
  ∃ inner, InBraces before inner ∧ ('=' ∉ inner ∨ EndsVisibly line ',')

/-- The value of `label` is due, unless a name is. -/
def ValueDue (before line label : List Char) : Prop :=
  (∃ inner, InBraces before inner) ∧ Assigns line label

/-- The answer that the text before the cursor at `place` calls for. -/
inductive Shows (before : List Char) (place : Nat) (isExplicit : Bool) : Option Context → Prop where
  | name {line : List Char} :
      LastLine before line → NameDue before line →
      Shows before place isExplicit (some ⟨.labelName, place, .textLabelName⟩)
  | value {line label : List Char} :
      LastLine before line → ¬ NameDue before line → ValueDue before line label →
      Shows before place isExplicit
        (some ⟨.labelValue (String.ofList label) .double, place, .textLabelValue⟩)
  | word {line run : List Char} :
      LastLine before line → ¬ NameDue before line → (∀ label, ¬ ValueDue before line label) →
      WordRun before run → run ≠ [] ∨ isExplicit = true →
      Shows before place isExplicit (some ⟨.anyWord, place - byteLength run, .word⟩)
  | nothing {line : List Char} :
      LastLine before line → ¬ NameDue before line → (∀ label, ¬ ValueDue before line label) →
      WordRun before [] → isExplicit = false → Shows before place isExplicit none

variable {before line inner label : List Char}

/-! ## Where the brace and the line meet -/

/-- **A line that visibly ends in an open brace shows a brace with nothing in it.** -/
theorem not_mem_of_endsVisibly (hline : LastLine before line) (hin : InBraces before inner)
    (h : EndsVisibly line '{') : '=' ∉ inner := by
  obtain ⟨front, hfront⟩ := hline.suffix
  obtain ⟨pre, blanks, rfl, -, hblanks⟩ := h
  have hlast : AfterLast '{' before blanks := by
    refine ⟨front ++ pre, by rw [← hfront]; simp, fun hb => ?_⟩
    exact absurd (hblanks _ hb) (by decide)
  rw [hin.1.unique hlast]
  intro hb
  exact absurd (hblanks _ hb) (by decide)

/-- **The word before a final equals sign lies inside the brace.** -/
theorem suffix_inner (hline : LastLine before line) (hin : InBraces before inner)
    (h : Assigns line label) : label ++ ['='] <:+ inner := by
  obtain ⟨-, front, rfl, hrun⟩ := h
  obtain ⟨⟨pre, hpre, -⟩, -⟩ := hin
  have hword : label ++ ['='] <:+ before :=
    ((List.suffix_append_inj_of_length_eq rfl).mpr ⟨hrun.suffix, rfl⟩).trans hline.suffix
  have hbrace : '{' ∉ label ++ ['='] := by
    obtain ⟨-, -, hall, -⟩ := hrun
    intro hm
    rcases List.mem_append.mp hm with hm | hm
    · exact absurd (hall _ hm) (by decide)
    · exact absurd hm (by decide)
  -- both end the text, so the shorter one ends the longer one
  rcases List.suffix_or_suffix_of_suffix hword ⟨pre, hpre.symm⟩ with hs | hs
  · rcases List.suffix_cons_iff.mp hs with he | hs
    · exact absurd (by rw [he]; simp) hbrace
    · exact hs
  · exact absurd (hs.mem List.mem_cons_self) hbrace

/-! ## The functions, described by splits -/

theorem openSelector?_eq_some_iff : openSelector? before = some inner ↔ InBraces before inner := by
  rw [InBraces, afterLast_iff, openSelector?]
  by_cases h : '{' ∈ before ∧ '}' ∉ trailing (· != '{') before
  · -- then the answer is what follows the last brace
    rw [if_pos (by simpa using h)]
    constructor
    · intro he
      rw [← Option.some.inj he]
      exact ⟨⟨h.1, rfl⟩, h.2⟩
    · rintro ⟨⟨-, rfl⟩, -⟩
      rfl
  · rw [if_neg (by simpa using h)]
    constructor
    · intro he
      exact absurd he (by simp)
    · rintro ⟨⟨hm, rfl⟩, hn⟩
      exact absurd ⟨hm, hn⟩ h

theorem assignedLabel?_eq_some_iff : assignedLabel? line = some label ↔ Assigns line label := by
  rw [assignedLabel?.eq_def, Assigns]
  split
  · rename_i hlast
    obtain ⟨front, rfl⟩ := List.getLast?_eq_some_iff.mp hlast
    rw [List.dropLast_concat]
    constructor
    · intro h
      -- an empty word before the sign names no label
      dsimp only at h
      split at h
      · exact absurd h (by simp)
      · rename_i hne
        rw [← Option.some.inj h]
        exact ⟨by simpa using hne, front, rfl, wordRun_iff.mpr rfl⟩
    · rintro ⟨hne, front', he, hrun⟩
      rw [List.append_inj_left' he rfl, ← wordRun_iff.mp hrun]
      exact if_neg (by simpa using hne)
  · rename_i hlast
    constructor
    · intro h
      exact absurd h (by simp)
    · rintro ⟨-, front, rfl, -⟩
      exact absurd (List.getLast?_concat ..) hlast

/-- What `inSelector?` tests for a label name, with the case that never decides left out. -/
theorem nameTest_iff (hline : LastLine before line) (hin : InBraces before inner) :
    (!inner.contains '=' ∨ (trim line).getLast? = some ',' ∨ (trim line).getLast? = some '{') ↔
      NameDue before line := by
  simp only [getLast?_trim, Bool.not_eq_true', List.contains_eq_mem, decide_eq_false_iff_not]
  constructor
  · rintro (h | h | h)
    · exact ⟨inner, hin, Or.inl h⟩
    · exact ⟨inner, hin, Or.inr h⟩
    · exact ⟨inner, hin, Or.inl (not_mem_of_endsVisibly hline hin h)⟩
  · rintro ⟨inner', hin', h⟩
    rw [hin.1.unique hin'.1]
    rcases h with h | h
    · exact Or.inl h
    · exact Or.inr (Or.inl h)

section

variable (cursor : Nat) (hline : LastLine before line)

include hline

theorem inSelector?_of_nameDue (h : NameDue before line) :
    inSelector? before line cursor = some ⟨.labelName, cursor, .textLabelName⟩ := by
  obtain ⟨inner, hin, -⟩ := id h
  rw [inSelector?, openSelector?_eq_some_iff.mpr hin]
  exact if_pos ((nameTest_iff hline hin).mpr h)

theorem inSelector?_of_not_nameDue (hin : InBraces before inner) (h : ¬ NameDue before line) :
    inSelector? before line cursor = (assignedLabel? line).map fun label =>
      ⟨.labelValue (String.ofList label) .double, cursor, .textLabelValue⟩ := by
  rw [inSelector?, openSelector?_eq_some_iff.mpr hin]
  refine (if_neg fun ht => h ((nameTest_iff hline hin).mp ht)).trans ?_
  cases assignedLabel? line <;> rfl

theorem inSelector?_of_valueDue (hn : ¬ NameDue before line) (h : ValueDue before line label) :
    inSelector? before line cursor =
      some ⟨.labelValue (String.ofList label) .double, cursor, .textLabelValue⟩ := by
  obtain ⟨⟨inner, hin⟩, hlabel⟩ := h
  rw [inSelector?_of_not_nameDue cursor hline hin hn, assignedLabel?_eq_some_iff.mpr hlabel]
  rfl

theorem inSelector?_eq_none (hn : ¬ NameDue before line)
    (hv : ∀ label, ¬ ValueDue before line label) : inSelector? before line cursor = none := by
  cases hopen : openSelector? before with
  | none => rw [inSelector?, hopen]; rfl
  | some inner =>
      have hin := openSelector?_eq_some_iff.mp hopen
      rw [inSelector?_of_not_nameDue cursor hline hin hn]
      cases hlabel : assignedLabel? line with
      | none => rfl
      | some label =>
          exact absurd ⟨⟨inner, hin⟩, assignedLabel?_eq_some_iff.mp hlabel⟩ (hv label)

end

/-! ## The answer -/

/-- The word under way, read off the text before the cursor. -/
theorem onWord?_eq {text run : List Char} {cursor : Nat} (isExplicit : Bool)
    (hc : IsBoundary text cursor) (h : WordRun (upTo text cursor) run) :
    onWord? text cursor isExplicit =
      if run = [] ∧ isExplicit = false then none
      else some ⟨.anyWord, cursor - byteLength run, .word⟩ := by
  have hstart := wordStart_eq_sub hc h
  have hempty : wordStart text cursor = cursor ↔ run = [] := by
    have hadd := wordStart_add text cursor
    rw [← wordRun_iff.mp h, show clamp text cursor = cursor from hc] at hadd
    rw [← byteLength_eq_zero_iff]
    omega
  rw [onWord?]
  simp only [hempty, Bool.not_eq_true']
  rw [hstart]

/-- Some rule always applies. -/
theorem shows_total (before : List Char) (place : Nat) (isExplicit : Bool) :
    ∃ answer, Shows before place isExplicit answer := by
  have hline := lastLine_iff.mpr (rfl : trailing (· != '\n') before = _)
  have hrun := wordRun_iff.mpr (rfl : trailing isWord before = _)
  by_cases hn : NameDue before (trailing (· != '\n') before)
  · exact ⟨_, .name hline hn⟩
  by_cases hv : ∃ label, ValueDue before (trailing (· != '\n') before) label
  · obtain ⟨label, hv⟩ := hv
    exact ⟨_, .value hline hn hv⟩
  have hv' := not_exists.mp hv
  by_cases hw : trailing isWord before ≠ [] ∨ isExplicit = true
  · exact ⟨_, .word hline hn hv' hrun hw⟩
  · obtain ⟨hnil, hexp⟩ := not_or.mp hw
    rw [Classical.not_not.mp hnil] at hrun
    exact ⟨_, .nothing hline hn hv' hrun (by simpa using hexp)⟩

/-- The answer that a rule gives is the one that is computed. -/
theorem ofText?_of_shows {text : List Char} {cursor : Nat} {isExplicit : Bool}
    {answer : Option Context} (hc : IsBoundary text cursor)
    (h : Shows (upTo text cursor) cursor isExplicit answer) :
    ofText? text cursor isExplicit = answer := by
  have hlineBefore : ∀ {line}, LastLine (upTo text cursor) line → lineBefore text cursor = line :=
    fun h => (lastLine_iff.mp h).symm
  cases h with
  | name hline hn =>
      rw [ofText?, hlineBefore hline, inSelector?_of_nameDue cursor hline hn]
      rfl
  | value hline hn hv =>
      rw [ofText?, hlineBefore hline, inSelector?_of_valueDue cursor hline hn hv]
      rfl
  | word hline hn hv hrun hw =>
      rw [ofText?, hlineBefore hline, inSelector?_eq_none cursor hline hn hv,
        onWord?_eq isExplicit hc hrun, if_neg]
      · rfl
      · rintro ⟨hnil, hexp⟩
        rcases hw with hw | hw
        · exact hw hnil
        · exact absurd (hexp.symm.trans hw) (by decide)
  | nothing hline hn hv hrun hexp =>
      rw [ofText?, hlineBefore hline, inSelector?_eq_none cursor hline hn hv,
        onWord?_eq isExplicit hc hrun, if_pos ⟨rfl, hexp⟩]
      rfl

/--
**A request without a tree is answered as the rules say, and in no other way.** Of the two places
where the text before the cursor is cut, a line that visibly ends in an open brace changes
nothing, since that brace is still empty, and the label before a final equals sign lies inside the
brace.
-/
theorem context?_iff_shows {text : List Char} (hne : text ≠ []) (cursor : Nat)
    (isExplicit : Bool) :
    (∀ answer, Request.context? ⟨text, cursor, none, isExplicit⟩ = answer ↔
      Shows (upTo text (clamp text cursor)) (clamp text cursor) isExplicit answer) ∧
    (∀ line inner, LastLine (upTo text (clamp text cursor)) line →
      InBraces (upTo text (clamp text cursor)) inner →
      (EndsVisibly line '{' → '=' ∉ inner) ∧
      ∀ label, Assigns line label → label ++ ['='] <:+ inner) := by
  refine ⟨fun answer => ?_, fun line inner hline hin =>
    ⟨not_mem_of_endsVisibly hline hin, fun label => suffix_inner hline hin⟩⟩
  have hctx : Request.context? ⟨text, cursor, none, isExplicit⟩ =
      ofText? text (clamp text cursor) isExplicit :=
    if_neg (by simpa using hne)
  have hc := isBoundary_clamp text cursor
  rw [hctx]
  constructor
  · rintro rfl
    obtain ⟨answer, h⟩ := shows_total (upTo text (clamp text cursor)) (clamp text cursor) isExplicit
    rw [ofText?_of_shows hc h]
    exact h
  · exact ofText?_of_shows hc

/-- The value of the last label of a selector is due, whatever stood on the line before. -/
theorem shows_value_after_line_break :
    "\x7ba=1,\nlevel=".toList ≠ [] ∧
      Shows "\x7ba=1,\nlevel=".toList 12 false
        (some ⟨.labelValue "level" .double, 12, .textLabelValue⟩) := by
  have hne : "\x7ba=1,\nlevel=".toList ≠ [] := by decide
  have hctx : Request.context? ⟨"\x7ba=1,\nlevel=".toList, 40, none, false⟩ =
      some ⟨.labelValue "level" .double, 12, .textLabelValue⟩ := by decide
  exact ⟨hne, ((context?_iff_shows hne 40 false).1 _).mp hctx⟩

end LogQL.Context
