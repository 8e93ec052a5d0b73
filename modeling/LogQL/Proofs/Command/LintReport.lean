import LogQL.Command.Run
import LogQL.Proofs.Diagnostic.Positions
import LogQL.Proofs.Diagnostic.Rules

/-!
# What the lint command prints

A finding takes one line of the report: where it begins, a word for how bad it is, and its message.
Without a tree no message quotes the text but for single brackets, so no line break gets into a line
(`not_mem_message`), and the lines of the report are the findings again (`lintLines_eq`). The
numbers and the word hold no blank either, which is why the word can be read off a printed line
(`Reads.isErrorLine_eq`), and the errors that the command counts are those that it prints.

A bracket stands behind the text that its offset cuts off, so at the reading of that text in the
lines of the whole (`Position.exists_line_of_append_cons`). In a text of fewer than `2 ^ 32` bytes
that reading is the position that is printed, less one each for line and character.
-/

namespace LogQL.Command

open Diagnostic (check)
open Text (byteLength IsBoundary)

variable {text : List Char} {d : Diagnostic} {o : Diagnostic.Options}

/-! ## Lines of a report -/

/-- The lines of a report. One without text has none. -/
def linesOf (report : List Char) : List (List Char) :=
  if report = [] then [] else report.splitOn '\n'

theorem toList_joinLines (lines : List String) :
    (joinLines lines).toList = ['\n'].intercalate (lines.map String.toList) :=
  String.toList_intercalate

/-- **Lines that are joined are the lines of the report**, if none is empty or has a line break. -/
theorem linesOf_joinLines {lines : List String} (hne : ∀ line ∈ lines, line.toList ≠ [])
    (hbreak : ∀ line ∈ lines, '\n' ∉ line.toList) :
    linesOf (joinLines lines).toList = lines.map String.toList := by
  rw [toList_joinLines, linesOf]
  cases lines with
  | nil => rfl
  | cons line lines =>
      have hfirst : ['\n'].intercalate ((line :: lines).map String.toList) ≠ [] := by
        have hline := hne line List.mem_cons_self
        cases lines <;> simp [List.intercalate_cons_cons, hline]
      rw [if_neg hfirst]
      refine List.splitOn_intercalate '\n' ?_ (by simp)
      intro l hl
      obtain ⟨line', hline', rfl⟩ := List.mem_map.mp hl
      exact hbreak line' hline'

/-- Lines with a line break between them and one behind are lines that each end in one. -/
theorem intercalate_append_break (line : List Char) (lines : List (List Char)) :
    ['\n'].intercalate (line :: lines) ++ ['\n'] = (line :: lines).flatMap (· ++ ['\n']) := by
  induction lines generalizing line with
  | nil => simp
  | cons line' lines ih =>
      rw [List.intercalate_cons_cons, List.append_assoc, ih]
      simp only [List.flatMap_cons]

/-- A report that is printed ends each of its lines. -/
theorem toList_printed {lines : List String} (hne : ∀ line ∈ lines, line.toList ≠ []) :
    (Outcome.ofReport (joinLines lines)).printed.toList =
      (lines.map String.toList).flatMap (· ++ ['\n']) := by
  cases lines with
  | nil => rfl
  | cons line lines =>
      have hfirst : joinLines (line :: lines) ≠ "" := by
        intro hempty
        have hlist := toList_joinLines (line :: lines)
        rw [hempty] at hlist
        have hline := hne line List.mem_cons_self
        cases lines <;> simp [List.intercalate_cons_cons, hline] at hlist
      rw [Outcome.ofReport, if_neg hfirst, String.toList_append, toList_joinLines, List.map_cons]
      exact intercalate_append_break _ _

/-! ## The line for a finding -/

/-- The line reads `l:c`, then a word for how bad a finding is, then its message. -/
def Reads (line : List Char) (l c : Nat) (d : Diagnostic) : Prop :=
  line = (Decimal.digits l ++ ':' :: Decimal.digits c) ++ ' ' :: (d.severity.word.toList ++
    ' ' :: d.message.toList)

/-- The line is about an error: the word after the first blank says so. -/
def isErrorLine (line : List Char) : Bool := (line.splitOn ' ')[1]? == some "error".toList

theorem reads_finding (text : List Char) (d : Diagnostic) :
    Reads (Style.plain.finding text d).toList ((Position.ofOffset text d.start).line.toNat + 1)
      ((Position.ofOffset text d.start).character.toNat + 1) d := by
  have hword : Style.plain.severity d.severity = d.severity.word := by
    cases d.severity <;> rfl
  unfold Reads Style.finding
  simp [hword, Decimal.text]

theorem not_mem_digits {c : Char} (hc : c.isDigit = false) (n : Nat) : c ∉ Decimal.digits n := by
  intro hmem
  rw [Decimal.isDigit_of_mem_digits hmem] at hc
  exact absurd hc (by decide)

theorem Reads.ne_nil {line : List Char} {l c : Nat} (h : Reads line l c d) : line ≠ [] := by
  rw [h]
  simp

/-- No number and no word holds a line break. -/
theorem Reads.not_mem {line : List Char} {l c : Nat} (h : Reads line l c d)
    (hmessage : '\n' ∉ d.message.toList) : '\n' ∉ line := by
  have hword : '\n' ∉ d.severity.word.toList := by cases d.severity <;> decide
  have hdigits := not_mem_digits (show ('\n').isDigit = false by decide)
  rw [h]
  simp [hword, hmessage, hdigits]

/-- **The word on a line says how bad its finding is.** -/
theorem Reads.isErrorLine_eq {line : List Char} {l c : Nat} (h : Reads line l c d) :
    isErrorLine line = (d.severity == .error) := by
  have hplace : ∀ x ∈ Decimal.digits l ++ ':' :: Decimal.digits c, (x == ' ') = false := by
    have hdigits := not_mem_digits (show (' ').isDigit = false by decide)
    intro x hx
    rw [beq_eq_false_iff_ne]
    rintro rfl
    simp [hdigits] at hx
  have hword : ∀ x ∈ d.severity.word.toList, (x == ' ') = false := by
    have hall : d.severity.word.toList.all (· != ' ') = true := by cases d.severity <;> rfl
    intro x hx
    simpa using List.all_eq_true.mp hall x hx
  rw [isErrorLine, h, List.splitOn,
    List.splitOnP_append_cons_of_forall_mem hplace ' ' (by rfl),
    List.splitOnP_append_cons_of_forall_mem hword ' ' (by rfl)]
  cases d.severity <;> rfl

/-! ## Findings without a tree -/

/-- Without a tree no message quotes more of the text than a bracket. -/
theorem not_mem_message (h : d ∈ check o text none) : '\n' ∉ d.message.toList := by
  have hd := Diagnostic.mem_checkRule_of_mem_check h
  cases hrule : d.rule with
  | quotes =>
      rw [hrule] at hd
      obtain ⟨rfl, -⟩ := Diagnostic.mem_checkQuotes_iff.mp hd
      dsimp only [Diagnostic.openQuote]
      decide
  | brackets =>
      rw [hrule] at hd
      obtain ⟨what, hwhat, m, hm, rfl⟩ := Diagnostic.bracketFinding_of_mem hd
      have hbracket : '\n' ≠ m.2 := by
        intro he
        have hb := Diagnostic.isBracket_of_mem_marks hm
        rw [← he] at hb
        exact absurd hb (by decide)
      have hfault : ∀ what ∈ Diagnostic.bracketFaults, '\n' ∉ what.toList := by decide
      simp [Diagnostic.bracketFinding, hfault what hwhat, hbracket]
  | parseErrors =>
      rw [hrule] at hd
      exact absurd hd List.not_mem_nil
  | emptySelector =>
      rw [hrule] at hd
      obtain ⟨place, -, rfl⟩ := List.mem_map.mp hd
      dsimp only
      decide

theorem rule_ne_parseErrors (h : d ∈ check o text none) : d.rule ≠ .parseErrors := by
  intro hrule
  have hd := Diagnostic.mem_checkRule_of_mem_check h
  rw [hrule] at hd
  exact absurd hd List.not_mem_nil

/-- A finding without a tree begins between two characters, before the end of the text. -/
theorem start_of_mem_check (h : d ∈ check o text none) :
    IsBoundary text d.start ∧ d.start < byteLength text := by
  have hcovers := Diagnostic.covers_of_mem_check h
  have hrule := rule_ne_parseErrors h
  refine ⟨(hcovers.isBoundary hrule).2.1, ?_⟩
  have hstop := hcovers.within.2
  cases hcovers with
  | whole =>
      -- only a text that is there has findings
      refine Nat.pos_of_ne_zero fun hzero => ?_
      rw [Text.byteLength_eq_zero_iff.mp hzero, Diagnostic.check_of_blank rfl] at h
      exact absurd h List.not_mem_nil
  | bracket => exact hstop
  | node n => exact absurd rfl hrule
  | emptySelector => exact Nat.lt_of_succ_lt hstop

/-- Neither number of a position exceeds the offset. -/
theorem position_le (hshort : byteLength text < UInt32.size) (offset : Nat) :
    (Position.ofOffset text offset).line.toNat ≤ offset ∧
      (Position.ofOffset text offset).character.toNat ≤ offset := by
  obtain ⟨hline, hcharacter⟩ :=
    Prod.mk.inj (toLex.injective (Position.order_ofOffset hshort offset))
  have hlength := Position.length_le_byteLength (Text.upTo text offset)
  have hle := Text.clamp_le text offset
  have hcount : (Text.upTo text offset).count '\n' ≤ (Text.upTo text offset).length :=
    List.count_le_length
  have hlast := congrArg List.length
    (Text.dropTrailing_append_trailing (· != '\n') (Text.upTo text offset))
  rw [List.length_append] at hlast
  unfold Text.clamp at hle
  omega

/-- The character at a line and a place on it, both counted from one. -/
def charAt? (text : List Char) (l c : Nat) : Option Char := do
  let row ← (text.splitOn '\n')[l - 1]?
  row[c - 1]?

/-- **A bracket is the character at its position.** -/
theorem charAt?_of_mem_marks (hshort : byteLength text < UInt32.size) {m : Nat × Char}
    (hm : m ∈ Diagnostic.marks text) :
    charAt? text ((Position.ofOffset text m.1).line.toNat + 1)
      ((Position.ofOffset text m.1).character.toNat + 1) = some m.2 := by
  obtain ⟨pre, post, rfl, hplace⟩ := Text.mem_located.mp (List.mem_of_mem_filter hm)
  have hbracket : m.2 ≠ '\n' := by
    intro he
    have hb := Diagnostic.isBracket_of_mem_marks hm
    rw [he] at hb
    exact absurd hb (by decide)
  obtain ⟨hline, hcharacter⟩ := Prod.mk.inj (toLex.injective (Position.order_ofOffset hshort m.1))
  rw [hplace, Nat.zero_add, Text.upTo_byteLength] at hline hcharacter
  obtain ⟨row, hl, hc⟩ := Position.exists_line_of_append_cons hbracket pre post
  rw [hplace, Nat.zero_add, hline, hcharacter, charAt?, Nat.add_sub_cancel, Nat.add_sub_cancel, hl,
    Option.bind_eq_bind, Option.bind_some]
  exact hc

/-- A line announces a finding that begins at a position. It reads the position, counted from one,
the word for how bad the finding is, and the message; both numbers fit into a word; the position is
that of the start of the finding; and if the finding is about a bracket, the message names the
character that is found at the position. -/
structure Announces (text : List Char) (d : Diagnostic) (line : List Char) (p : Position) :
    Prop where
  reads : Reads line (p.line.toNat + 1) (p.character.toNat + 1) d
  fits : p.line.toNat + 1 < UInt32.size ∧ p.character.toNat + 1 < UInt32.size
  place : p.offsetIn (text.splitOn '\n') = some d.start
  bracket : d.rule = .brackets → ∃ what ∈ Diagnostic.bracketFaults, ∃ b,
    Diagnostic.isBracket b = true ∧ d.message = what ++ " '" ++ String.ofList [b] ++ "'" ∧
      charAt? text (p.line.toNat + 1) (p.character.toNat + 1) = some b

/-- **The line for a finding announces it.** -/
theorem announces_finding (hshort : byteLength text < UInt32.size) (h : d ∈ check o text none) :
    Announces text d (Style.plain.finding text d).toList (Position.ofOffset text d.start) where
  reads := reads_finding text d
  fits := by
    have hle := position_le hshort d.start
    have hlt := (start_of_mem_check h).2
    omega
  place := Position.offsetIn_ofOffset hshort (start_of_mem_check h).1
  bracket hrule := by
    have hd := Diagnostic.mem_checkRule_of_mem_check h
    rw [hrule] at hd
    obtain ⟨what, hwhat, m, hm, rfl⟩ := Diagnostic.bracketFinding_of_mem hd
    exact ⟨what, hwhat, m.2, Diagnostic.isBracket_of_mem_marks hm, rfl,
      charAt?_of_mem_marks hshort hm⟩

/-! ## The outcome -/

/-- The lines of a report on a query, in plain text. -/
def lintLines (s : Session) (query : String) : List (List Char) :=
  linesOf (lintReport .plain .text s query).1.toList

/-- What comes of checking a query. -/
def lintOutcome (style : Style) (format : Notation) (s : Session) (query : String) : Outcome :=
  let (report, errors) := lintReport style format s query
  ⟨(Outcome.ofReport report).printed, if errors = 0 then none else some (.lint errors)⟩

theorem mem_check_of_mem_lint {s : Session} (h : d ∈ s.lint text none) :
    d ∈ check s.settings.lint text none := by
  unfold Session.lint at h
  split at h
  · exact h
  · exact absurd h List.not_mem_nil

theorem finding_ne_nil (text : List Char) (d : Diagnostic) :
    (Style.plain.finding text d).toList ≠ [] := (reads_finding text d).ne_nil

/-- **The report has one line for each finding**, in their order. -/
theorem lintLines_eq (s : Session) (query : String) :
    lintLines s query =
      (s.lint query.toList none).map fun d => (Style.plain.finding query.toList d).toList := by
  have hlines : ∀ line ∈ (s.lint query.toList none).map (Style.plain.finding query.toList),
      line.toList ≠ [] ∧ '\n' ∉ line.toList := by
    intro line hline
    obtain ⟨d, hd, rfl⟩ := List.mem_map.mp hline
    have hmessage := not_mem_message (mem_check_of_mem_lint hd)
    exact ⟨finding_ne_nil _ d, (reads_finding _ d).not_mem hmessage⟩
  have hjoined :=
    linesOf_joinLines (fun line h => (hlines line h).1) fun line h => (hlines line h).2
  rw [List.map_map] at hjoined
  exact hjoined

/-- **The errors that are counted are those that are printed.** -/
theorem lintReport_errors (style : Style) (format : Notation) (s : Session) (query : String) :
    (lintReport style format s query).2 = (lintLines s query).countP isErrorLine := by
  rw [lintLines_eq, List.countP_map]
  refine List.countP_congr fun d _ => ?_
  rw [Function.comp_apply, (reads_finding _ d).isErrorLine_eq]

/-- The command reads its query and then checks it. -/
theorem perform_lint {m : Type → Type} [Monad m] [LawfulMonad m] {σ : Type} {line : Line}
    {input : Input} {host : Host m} {effect : m Unit} {query : String} (fetch : Fetch.Fetcher σ)
    (s : Session) (w : σ) (haction : line.action = .lint input)
    (hread : input.read host = (do effect; pure (.ok query))) :
    line.perform host fetch s w = (do
      effect
      pure (lintOutcome host.style (if line.json then .json else .text) s query, w)) := by
  unfold Line.perform
  rw [haction]
  dsimp only
  rw [hread, bind_assoc]
  simp only [pure_bind]
  rfl

/-- With all rules on, errors are an open quote and brackets that do not nest. -/
theorem countP_check_eq_zero_iff (hblank : ¬text.all Text.isBlank = true) :
    (check .all text none).countP (·.severity == .error) = 0 ↔
      Even (text.count '"') ∧
        Diagnostic.Nested Diagnostic.Fits (text.filter Diagnostic.isBracket) := by
  have hfindings : check .all text none = Diagnostic.checkQuotes text ++
      (Diagnostic.checkBrackets text ++ Diagnostic.checkEmptySelector text) := by
    rw [Diagnostic.check_of_not_blank hblank]
    show Diagnostic.checkQuotes text ++ (Diagnostic.checkBrackets text ++
      ([] ++ (Diagnostic.checkEmptySelector text ++ []))) = _
    rw [List.nil_append, List.append_nil]
  have hquotes : (Diagnostic.checkQuotes text).countP (·.severity == .error) = 0 ↔
      Even (text.count '"') := by
    rw [Diagnostic.checkQuotes, Nat.even_iff]
    split <;> simp [*]
  have hbrackets : (Diagnostic.checkBrackets text).countP (·.severity == .error) =
      (Diagnostic.checkBrackets text).length := by
    rw [List.countP_eq_length]
    intro d hd
    obtain ⟨what, -, m, -, rfl⟩ := Diagnostic.bracketFinding_of_mem hd
    rfl
  have hselector : (Diagnostic.checkEmptySelector text).countP (·.severity == .error) = 0 := by
    rw [List.countP_eq_zero]
    intro d hd
    obtain ⟨place, -, rfl⟩ := List.mem_map.mp hd
    exact Bool.false_ne_true
  rw [hfindings, List.countP_append, List.countP_append, hbrackets, hselector, Nat.add_zero,
    Nat.add_eq_zero_iff, hquotes, List.length_eq_zero_iff, Diagnostic.checkBrackets_eq_nil_iff]

section Outcome

variable {s : Session} {query : String} {style : Style} {format : Notation}

/-- A report without text is one without findings. -/
theorem lintReport_eq_empty_iff :
    (lintReport .plain .text s query).1 = "" ↔ s.lint query.toList none = [] := by
  have hempty : lintLines s query = [] ↔ (lintReport .plain .text s query).1 = "" := by
    unfold lintLines linesOf
    rw [← String.toList_eq_nil_iff]
    by_cases hnil : (lintReport .plain .text s query).1.toList = []
    · simp [hnil]
    · simp [hnil, List.splitOn_ne_nil]
  rw [← hempty, lintLines_eq, List.map_eq_nil_iff]

/-- What is printed is each of the lines, with a line break behind it. -/
theorem printed_lintOutcome : (lintOutcome .plain .text s query).printed.toList =
    (lintLines s query).flatMap (· ++ ['\n']) := by
  have hne : ∀ line ∈ (s.lint query.toList none).map (Style.plain.finding query.toList),
      line.toList ≠ [] := by
    intro line hline
    obtain ⟨d, -, rfl⟩ := List.mem_map.mp hline
    exact finding_ne_nil _ d
  have hprinted := toList_printed hne
  rw [List.map_map] at hprinted
  rw [lintLines_eq]
  exact hprinted

theorem failure_lintOutcome : (lintOutcome style format s query).failure =
    if (lintLines s query).countP isErrorLine = 0 then none
    else some (.lint ((lintLines s query).countP isErrorLine)) := by
  rw [← lintReport_errors style format]
  rfl

theorem failure_lintOutcome_eq_none_iff : (lintOutcome style format s query).failure = none ↔
    (lintLines s query).countP isErrorLine = 0 := by
  rw [failure_lintOutcome]
  split <;> simp [*]

/-- **The command fails just if a line is about an error**, with the number of such lines. -/
theorem failure_lintOutcome_eq_some_iff {f : Failure} :
    (lintOutcome style format s query).failure = some f ↔
      f = .lint ((lintLines s query).countP isErrorLine) ∧
        ∃ l ∈ lintLines s query, isErrorLine l = true := by
  rw [failure_lintOutcome, ← List.countP_pos_iff]
  by_cases hzero : (lintLines s query).countP isErrorLine = 0
  · simp [hzero]
  · simp [hzero, Nat.pos_of_ne_zero hzero, eq_comm]

theorem exitCode_lintOutcome : (lintOutcome style format s query).exitCode =
    if (lintLines s query).any isErrorLine then 1 else 0 := by
  have hany : (lintLines s query).any isErrorLine = true ↔
      (lintLines s query).countP isErrorLine ≠ 0 := by
    rw [List.any_eq_true, ← List.countP_pos_iff, Nat.pos_iff_ne_zero]
  rw [Outcome.exitCode, failure_lintOutcome]
  by_cases hzero : (lintLines s query).countP isErrorLine = 0
  · rw [if_pos hzero, if_neg fun h => hany.mp h hzero]
    rfl
  · rw [if_neg hzero, if_pos (hany.mpr hzero)]
    rfl

/-- **With all rules on, the command succeeds just if quotes are even and brackets nest.** -/
theorem succeeds_iff (hon : s.settings.lints = true) (hall : s.settings.lint = .all)
    (hvisible : ∃ c ∈ query.toList, Text.isBlank c = false) :
    (lintOutcome style format s query).failure = none ↔ Even (query.toList.count '"') ∧
      Diagnostic.Nested Diagnostic.Fits (query.toList.filter Diagnostic.isBracket) := by
  have hblank : ¬query.toList.all Text.isBlank = true := by
    obtain ⟨c, hc, hvisible⟩ := hvisible
    intro h
    rw [List.all_eq_true.mp h c hc] at hvisible
    exact absurd hvisible (by decide)
  have hfindings : s.lint query.toList none = check .all query.toList none := by
    rw [Session.lint, if_pos hon, hall]
  rw [failure_lintOutcome_eq_none_iff, ← lintReport_errors style format,
    ← countP_check_eq_zero_iff hblank, ← hfindings]
  rfl

end Outcome

/--
**The lint command prints every finding, each at its place.** For a query of fewer than `2 ^ 32`
bytes and any session, the report has one line for each finding without a tree, in their order, and
is empty if there is none. The line announces the finding: for a bracket, the character that is
counted out from the two numbers in the lines of the query is the bracket that the message names.
However the query is read, what is printed in plain text is those lines; the command fails just if
one of them is about an error, with their number and the exit code one; and if linting and all of
its rules are on and the query is not blank, it succeeds just if the number of double quotes is even
and the brackets nest.
-/
theorem lint_prints_findings (s : Session) (query : String)
    (hshort : byteLength query.toList < UInt32.size) :
    ((lintReport .plain .text s query).1 = "" ↔ s.lint query.toList none = []) ∧
    List.Forall₂ (fun d line => ∃ p, Announces query.toList d line p)
      (s.lint query.toList none) (lintLines s query) ∧
    ∀ {m : Type → Type} [Monad m] [LawfulMonad m] {σ : Type} (line : Line) (input : Input)
      (host : Host m) (effect : m Unit) (fetch : Fetch.Fetcher σ) (w : σ),
      line.action = .lint input → input.read host = (do effect; pure (.ok query)) →
      ∃ outcome, line.perform host fetch s w = (do effect; pure (outcome, w)) ∧
        (host.style = .plain → line.json = false →
          outcome.printed.toList = (lintLines s query).flatMap (· ++ ['\n'])) ∧
        (∀ f, outcome.failure = some f ↔ f = .lint ((lintLines s query).countP isErrorLine) ∧
          ∃ l ∈ lintLines s query, isErrorLine l = true) ∧
        (outcome.exitCode = if (lintLines s query).any isErrorLine then 1 else 0) ∧
        (s.settings.lints = true → s.settings.lint = .all →
          (∃ c ∈ query.toList, Text.isBlank c = false) →
          (outcome.failure = none ↔ Even (query.toList.count '"') ∧
            Diagnostic.Nested Diagnostic.Fits (query.toList.filter Diagnostic.isBracket))) := by
  refine ⟨lintReport_eq_empty_iff, ?_, ?_⟩
  · rw [lintLines_eq, List.forall₂_map_right_iff, List.forall₂_same]
    exact fun d hd => ⟨_, announces_finding hshort (mem_check_of_mem_lint hd)⟩
  · intro m _ _ σ line input host effect fetch w haction hread
    refine ⟨_, perform_lint fetch s w haction hread, ?_, fun _ => failure_lintOutcome_eq_some_iff,
      exitCode_lintOutcome, succeeds_iff⟩
    intro hplain htext
    rw [hplain, htext]
    exact printed_lintOutcome

/-- On two lines, with a letter of two bytes in front of the brace: a quote that is open, a bracket
that is, and one that is closed by a brace. -/
def openEverywhere : String := "é\x7b\n\"(\x7d"

/-- Standard settings and no source. -/
def offline : Session := .ofSettings .standard

/-- Nothing to read from, and no colours. -/
def quiet : Host Id := ⟨fun _ => .nothing, [], [], .plain⟩

/-- The quote is announced as the whole text, the bracket as the second character of the second
line, and the brace, behind a letter of two bytes, as the second of the first. -/
theorem lint_prints_findings_twoLines :
    byteLength openEverywhere.toList < UInt32.size ∧
      charAt? openEverywhere.toList 2 2 = some '(' ∧
      charAt? openEverywhere.toList 1 2 = some '\x7b' ∧
      List.Forall₂ (fun d line => ∃ p, Announces openEverywhere.toList d line p)
        (offline.lint openEverywhere.toList none) (lintLines offline openEverywhere) ∧
      ∃ outcome,
        Line.perform ⟨.lint ⟨none, some openEverywhere⟩, none, none, none, false⟩ quiet
          (fun _ _ w => (.ok "", w)) offline () = (outcome, ()) ∧
        outcome.failure = some (.lint 3) ∧ outcome.exitCode = 1 := by
  have hshort : byteLength openEverywhere.toList < UInt32.size := by decide
  have herrors : (lintLines offline openEverywhere).countP isErrorLine = 3 := by
    rw [← lintReport_errors .plain .text]
    decide
  have hany : (lintLines offline openEverywhere).any isErrorLine = true := by
    rw [List.any_eq_true, ← List.countP_pos_iff, herrors]
    decide
  obtain ⟨-, hannounced, hrun⟩ := lint_prints_findings offline openEverywhere hshort
  obtain ⟨outcome, hperform, -, hfailure, hcode, -⟩ :=
    hrun ⟨.lint ⟨none, some openEverywhere⟩, none, none, none, false⟩ ⟨none, some openEverywhere⟩
      quiet (pure ()) (fun _ _ w => (.ok "", w)) () rfl rfl
  refine ⟨hshort, by decide, by decide, hannounced, outcome, hperform, ?_, ?_⟩
  · exact (hfailure _).mpr ⟨by rw [herrors], List.any_eq_true.mp hany⟩
  · rw [hcode, if_pos hany]

end LogQL.Command
