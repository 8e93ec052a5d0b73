import LogQL.Proofs.Diagnostic.Findings
import Mathlib.Algebra.Group.Nat.Even

/-!
# The rules do not depend on each other

What a rule reports is decided by the text and the tree alone, and it is reported under the rule's
own name. So switching a rule off takes its findings out of the report and leaves everything else
where it was: the report is that of all rules, less the findings of those that are off
(`check_eq_filter`).

The rules that are on report one after the other, which makes the report sorted by rule
(`check_sorted`). Whether the text is blank is asked first, so a blank text has no finding of any
rule, whatever the tree says of it.
-/

namespace LogQL.Diagnostic

open Text (byteLength bytes)

variable {text : List Char} {tree : Option Tree} {o : Options} {d : Diagnostic}

/-- The place of a rule in a report: quotes, brackets, what could not be parsed, empty selectors. -/
def Rule.rank : Rule → Nat
  | .quotes => 0
  | .brackets => 1
  | .parseErrors => 2
  | .emptySelector => 3

theorem check_of_blank (h : text.all Text.isBlank = true) : check o text tree = [] := if_pos h

theorem check_of_not_blank (h : ¬text.all Text.isBlank = true) :
    check o text tree = (Rule.all.filter o.enables).flatMap (checkRule text tree) := if_neg h

/-- **Switching rules off only leaves out their findings.** -/
theorem check_eq_filter (o : Options) (text : List Char) (tree : Option Tree) :
    check o text tree = (check .all text tree).filter fun d => o.enables d.rule := by
  by_cases hblank : text.all Text.isBlank = true
  · rw [check_of_blank hblank, check_of_blank hblank, List.filter_nil]
  · have hall : Rule.all.filter Options.all.enables = Rule.all := by decide
    rw [check_of_not_blank hblank, check_of_not_blank hblank, hall, filter_flatMap_checkRule]

/-- **The report is sorted by rule.** -/
theorem check_sorted (o : Options) (text : List Char) (tree : Option Tree) :
    (check o text tree).Pairwise fun d d' => d.rule.rank ≤ d'.rule.rank := by
  have hranks : (Rule.all.filter o.enables).Pairwise fun r r' => r.rank ≤ r'.rank :=
    List.Pairwise.filter _ (by decide)
  by_cases hblank : text.all Text.isBlank = true
  · rw [check_of_blank hblank]
    exact List.Pairwise.nil
  · rw [check_of_not_blank hblank, List.pairwise_flatMap]
    constructor
    · -- findings of one rule are level
      intro rule _
      refine List.pairwise_of_forall_mem_list fun d hd d' hd' => ?_
      rw [rule_of_mem_checkRule hd, rule_of_mem_checkRule hd']
    · refine hranks.imp fun hle d hd d' hd' => ?_
      rwa [rule_of_mem_checkRule hd, rule_of_mem_checkRule hd']

/-- A rule that finds one thing at most is seen once at most in the report. -/
theorem countP_check_le_one (o : Options) (rule : Rule)
    (h : (checkRule text tree rule).length ≤ 1) :
    (check o text tree).countP (fun d => d.rule = rule) ≤ 1 := by
  rw [List.countP_eq_length_filter, filter_check]
  split
  · exact h
  · exact Nat.zero_le 1

theorem length_checkQuotes_le (text : List Char) : (checkQuotes text).length ≤ 1 := by
  unfold checkQuotes
  split <;> simp

theorem length_checkEmptySelector_le (text : List Char) :
    (checkEmptySelector text).length ≤ 1 := by
  unfold checkEmptySelector
  cases emptySelector? 0 text <;> simp

/-- The finding about quotes. -/
def openQuote (text : List Char) : Diagnostic :=
  ⟨0, byteLength text, .error, "Unclosed double quote", .quotes⟩

/-- **There is a finding about quotes just when the number of quotes is odd.** -/
theorem mem_checkQuotes_iff : d ∈ checkQuotes text ↔ d = openQuote text ∧ Odd (text.count '"') := by
  unfold checkQuotes
  rw [← Nat.not_even_iff_odd, Nat.even_iff]
  by_cases heven : text.count '"' % 2 = 0 <;> simp [heven, openQuote]

theorem mem_check_quotes_iff :
    d ∈ check o text tree ∧ d.rule = .quotes ↔
      d = openQuote text ∧ o.quotes = true ∧ ¬text.all Text.isBlank = true ∧
        Odd (text.count '"') := by
  have hfilter := filter_check o text tree .quotes
  have hmem : d ∈ check o text tree ∧ d.rule = .quotes ↔
      d ∈ (check o text tree).filter fun d => d.rule = .quotes := by simp
  rw [hmem, hfilter]
  by_cases hon : o.quotes = true <;> by_cases hblank : text.all Text.isBlank = true <;>
    simp [Options.enables, hon, hblank, checkRule, mem_checkQuotes_iff]

/--
**Every rule is checked by itself.** Whatever the text, the rules that are on and the tree, if there
is one, the report is that of all rules, less the findings of the rules that are off, in the same
order. It is sorted by rule. It has one finding about quotes at most and one about an empty
selector. The one about quotes is there just when that rule is on, the text is not blank and it has
an odd number of bytes that are double quotes, and it covers the whole text. A blank text has no
findings.
-/
theorem check_by_rule (o : Options) (text : List Char) (tree : Option Tree) :
    check o text tree = (check .all text tree).filter (fun d => o.enables d.rule) ∧
    ((check o text tree).Pairwise fun d d' => d.rule.rank ≤ d'.rule.rank) ∧
    (check o text tree).countP (fun d => d.rule = .quotes) ≤ 1 ∧
    (check o text tree).countP (fun d => d.rule = .emptySelector) ≤ 1 ∧
    ((∃ d ∈ check o text tree, d.rule = .quotes) ↔
      o.quotes = true ∧ (∃ c ∈ text, Text.isBlank c = false) ∧
        Odd ((bytes text).count '"'.toNat.toUInt8)) ∧
    (∀ d ∈ check o text tree, d.rule = .quotes → d.start = 0 ∧ d.stop = (bytes text).length) ∧
    ((∀ c ∈ text, Text.isBlank c = true) → check o text tree = []) := by
  have hblank : ¬text.all Text.isBlank = true ↔ ∃ c ∈ text, Text.isBlank c = false := by simp
  refine ⟨check_eq_filter o text tree, check_sorted o text tree, ?_, ?_, ?_, ?_, ?_⟩
  · exact countP_check_le_one o .quotes (length_checkQuotes_le text)
  · exact countP_check_le_one o .emptySelector (length_checkEmptySelector_le text)
  · rw [Text.count_bytes (by decide), ← hblank]
    constructor
    · rintro ⟨d, hd⟩
      exact (mem_check_quotes_iff.mp hd).2
    · intro h
      exact ⟨openQuote text, mem_check_quotes_iff.mpr ⟨rfl, h⟩⟩
  · intro d hd hrule
    obtain ⟨rfl, -⟩ := mem_check_quotes_iff.mp ⟨hd, hrule⟩
    exact ⟨rfl, (Text.length_bytes text).symm⟩
  · exact fun h => check_of_blank (List.all_eq_true.mpr h)

/-- With brackets off the three other rules report as before: the quote that is open, both nodes
that could not be read, and the first selector. -/
theorem check_by_rule_noBrackets :
    check ⟨true, false, true, true⟩ "\x7b\x7d\"(".toList (some Checked.strayTree) =
        (check .all "\x7b\x7d\"(".toList (some Checked.strayTree)).filter
          (fun d => decide (d.rule ≠ .brackets)) ∧
      (check .all "\x7b\x7d\"(".toList (some Checked.strayTree)).map Diagnostic.rule =
        [.quotes, .brackets, .parseErrors, .parseErrors, .emptySelector] ∧
      check .all " \n".toList (some Checked.strayTree) = [] := by
  obtain ⟨hfilter, -⟩ :=
    check_by_rule ⟨true, false, true, true⟩ "\x7b\x7d\"(".toList (some Checked.strayTree)
  obtain ⟨-, -, -, -, -, -, hblank⟩ := check_by_rule .all " \n".toList (some Checked.strayTree)
  refine ⟨hfilter.trans (List.filter_congr fun d _ => ?_), rfl, hblank (List.all_eq_true.mp rfl)⟩
  cases d.rule <;> rfl

end LogQL.Diagnostic
