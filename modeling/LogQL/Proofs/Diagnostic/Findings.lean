import LogQL.Proofs.Diagnostic.Checked

/-!
# What a finding covers

Each rule reports under its own name, so the findings of a rule are those of the whole check that
carry it (`filter_check`), and what a finding covers is read off its rule. Quotes, brackets and empty
selectors are found by looking through the text, and so they lie between characters of it. The span
of a node comes with the tree and may be anything. It is cut to the text from the right and then from
the left, and the order matters: the start is cut to a stop that has been cut already, so an inverted
span is empty and none reaches out of the text.
-/

namespace LogQL.Diagnostic

open Text (byteLength slice? IsBoundary)

variable {text : List Char} {tree : Option Tree} {o : Options} {rule : Rule} {d : Diagnostic}

/-! ## The findings of one rule -/

/-- A rule reports under its own name. -/
theorem rule_of_mem_checkRule (h : d ∈ checkRule text tree rule) : d.rule = rule := by
  cases rule with
  | quotes =>
      have hd : d ∈ checkQuotes text := h
      unfold checkQuotes at hd
      split at hd
      · exact absurd hd List.not_mem_nil
      · rw [List.mem_singleton.mp hd]
  | brackets =>
      have hb : ∀ m ∈ marks text, isBracket m.2 = true := fun _ => isBracket_of_mem_marks
      have hd : d ∈ checkBrackets text := h
      rw [checkBrackets_eq_marks] at hd
      obtain ⟨what, m, -, rfl⟩ := mem_matchBrackets hb _ hd
      rfl
  | parseErrors =>
      cases tree with
      | none => exact absurd h List.not_mem_nil
      | some t =>
          obtain ⟨n, -, hn⟩ := List.mem_filterMap.mp h
          split at hn
          · exact Option.some.inj hn ▸ rfl
          · exact absurd hn (by simp)
  | emptySelector =>
      obtain ⟨place, -, rfl⟩ := List.mem_map.mp h
      rfl

/-- **To choose among the findings by their rules is to choose among the rules.** -/
theorem filter_flatMap_checkRule (p : Rule → Bool) (rules : List Rule) :
    (rules.flatMap (checkRule text tree)).filter (fun d => p d.rule) =
      (rules.filter p).flatMap (checkRule text tree) := by
  induction rules with
  | nil => rfl
  | cons rule rules ih =>
      rw [List.flatMap_cons, List.filter_append, ih]
      by_cases hp : p rule = true
      · have hself : (checkRule text tree rule).filter (fun d => p d.rule) =
            checkRule text tree rule :=
          List.filter_eq_self.mpr fun d hd => (rule_of_mem_checkRule hd).symm ▸ hp
        rw [hself, List.filter_cons_of_pos hp, List.flatMap_cons]
      · have hnone : (checkRule text tree rule).filter (fun d => p d.rule) = [] :=
          List.filter_eq_nil_iff.mpr fun d hd => (rule_of_mem_checkRule hd).symm ▸ hp
        rw [hnone, List.filter_cons_of_neg hp, List.nil_append]

/-- **The findings of a rule** are those of the check that carry its name, if it is on and the text
is not blank. -/
theorem filter_check (o : Options) (text : List Char) (tree : Option Tree) (rule : Rule) :
    (check o text tree).filter (fun d => d.rule = rule) =
      if o.enables rule && !text.all Text.isBlank then checkRule text tree rule else [] := by
  have honly : (Rule.all.filter o.enables).filter (· = rule) =
      if o.enables rule then [rule] else [] := by
    rw [List.filter_filter]
    cases rule <;> simp [Rule.all, List.filter_cons]
  rw [check]
  by_cases hblank : text.all Text.isBlank = true
  · simp [hblank]
  · rw [if_neg hblank, filter_flatMap_checkRule (· = rule), honly]
    by_cases hon : o.enables rule = true <;> simp [hon, hblank]

theorem mem_checkRule_of_mem_check (h : d ∈ check o text tree) :
    d ∈ checkRule text tree d.rule := by
  have hf : d ∈ (check o text tree).filter fun d' => d'.rule = d.rule :=
    List.mem_filter.mpr ⟨h, decide_eq_true rfl⟩
  rw [filter_check] at hf
  split at hf
  · exact hf
  · exact absurd hf List.not_mem_nil

/-! ## Brackets -/

/-- What is said of a bracket. -/
def bracketFaults : List String :=
  ["Unexpected closing bracket", "Mismatched bracket", "Unclosed bracket"]

/-- Every finding about brackets says one of three things about one bracket of the text. -/
theorem bracketFinding_of_mem (h : d ∈ checkBrackets text) :
    ∃ what ∈ bracketFaults, ∃ m ∈ marks text, d = bracketFinding what m.1 m.2 := by
  rw [checkBrackets_eq_marks] at h
  have hfound := matchBrackets_openAfter [] (marks text) rfl
  rw [show openAfter [] = [] from rfl] at hfound
  rw [hfound, List.mem_append, List.mem_filterMap, List.mem_filterMap] at h
  rcases h with ⟨c, hc, hd⟩ | ⟨m, hm, hd⟩
  · unfold closerFinding? at hd
    split at hd
    · cases hp : partner? text c with
      | none =>
          rw [hp] at hd
          exact ⟨_, by decide, c, hc, (Option.some.inj hd).symm⟩
      | some m =>
          rw [hp] at hd
          by_cases hfits : Fits m.2 c.2
          · exact absurd ((if_pos hfits).symm.trans hd) (by simp)
          · have hd := (if_neg hfits).symm.trans hd
            exact ⟨"Mismatched bracket", by decide, m, (partner?_eq_some_iff.mp hp).1,
              (Option.some.inj hd).symm⟩
    · exact absurd hd (by simp)
  · unfold openerFinding? at hd
    split at hd
    · exact ⟨_, by decide, m, hm, (Option.some.inj hd).symm⟩
    · exact absurd hd (by simp)

/-! ## Empty selectors -/

/-- The first place at which a word stands in a text. -/
def FirstAt (text word : List Char) (place : Nat) : Prop :=
  (∃ pre post, text = pre ++ word ++ post ∧ byteLength pre = place) ∧
    ∀ pre post, text = pre ++ word ++ post → place ≤ byteLength pre

theorem emptySelector?_cons {c : Char} {cs : List Char} {start : Nat}
    (h : ∀ rest, c :: cs ≠ '\x7b' :: '\x7d' :: rest) :
    emptySelector? start (c :: cs) = emptySelector? (start + c.utf8Size) cs := by
  rw [emptySelector?.eq_def]
  split
  · exact absurd ‹_› (h _)
  · rename_i heq
    obtain ⟨rfl, rfl⟩ := List.cons.inj heq
    rfl
  · simp_all

/-- **The search for an empty selector finds the first one**, and one that is there. -/
theorem emptySelector?_eq_some_iff {start place : Nat} :
    emptySelector? start text = some place ↔
      ∃ k, place = start + k ∧ FirstAt text ['\x7b', '\x7d'] k := by
  induction text generalizing start with
  | nil => simp [emptySelector?, FirstAt]
  | cons c cs ih =>
      by_cases hhere : ∃ rest, c :: cs = '\x7b' :: '\x7d' :: rest
      · obtain ⟨rest, hrest⟩ := hhere
        have hfirst : FirstAt ('\x7b' :: '\x7d' :: rest) ['\x7b', '\x7d'] 0 :=
          ⟨⟨[], rest, rfl, rfl⟩, fun _ _ _ => Nat.zero_le _⟩
        rw [hrest, emptySelector?, Option.some_inj]
        constructor
        · rintro rfl
          exact ⟨0, rfl, hfirst⟩
        · rintro ⟨k, rfl, -, hleast⟩
          have hzero := hleast [] rest rfl
          rw [byteLength] at hzero
          omega
      · have hnot : ∀ rest, c :: cs ≠ '\x7b' :: '\x7d' :: rest := fun rest he => hhere ⟨rest, he⟩
        rw [emptySelector?_cons hnot, ih]
        -- it does not stand here, so it stands `c` further on than in the rest
        constructor
        · rintro ⟨k, rfl, ⟨pre, post, rfl, rfl⟩, hleast⟩
          refine ⟨c.utf8Size + byteLength pre, by omega, ⟨c :: pre, post, rfl, rfl⟩, ?_⟩
          intro pre' post' h
          cases pre' with
          | nil => exact absurd h (hnot _)
          | cons c' pre' =>
              obtain ⟨rfl, hrest⟩ := List.cons.inj h
              have hle := hleast pre' post' hrest
              rw [byteLength]
              omega
        · rintro ⟨k, rfl, ⟨pre, post, h, rfl⟩, hleast⟩
          cases pre with
          | nil => exact absurd h (hnot _)
          | cons c' pre =>
              obtain ⟨rfl, rfl⟩ := List.cons.inj h
              refine ⟨byteLength pre, by rw [byteLength]; omega, ⟨pre, post, rfl, rfl⟩, ?_⟩
              intro pre' post' h
              have hle := hleast (c :: pre') post' (by rw [h]; rfl)
              simp only [byteLength] at hle
              omega

/-! ## Nodes that could not be read -/

/-- A finding shows a node: it covers what of the node's span lies in the text, and its message ends
with the text there, or with nothing where there is no slice. -/
structure Shows (text : List Char) (n : Tree.Node) (d : Diagnostic) : Prop where
  stop_eq : d.stop = min n.span.stop (byteLength text)
  start_eq : d.start = min n.span.start d.stop
  message_slice : ∀ w, slice? text d.start d.stop = some w →
    d.message = "Syntax error: " ++ String.ofList w
  message_none : slice? text d.start d.stop = none → d.message = "Syntax error: "

theorem shows_unreadableNode (text : List Char) (n : Tree.Node) :
    Shows text n (unreadableNode text n.span) where
  stop_eq := rfl
  start_eq := rfl
  message_slice w hw := by
    have hw' : slice? text (min n.span.start (min n.span.stop (byteLength text)))
        (min n.span.stop (byteLength text)) = some w := hw
    simp only [unreadableNode, hw', Option.getD_some]
  message_none hnone := by
    have hnone' : slice? text (min n.span.start (min n.span.stop (byteLength text)))
        (min n.span.stop (byteLength text)) = none := hnone
    simp only [unreadableNode, hnone', Option.getD_none]
    rfl

/-- **Each visit of a node that could not be read is shown once**, in the order of the visits. -/
theorem shows_checkParseErrors (text : List Char) (t : Tree) :
    List.Forall₂ (Shows text) ((t.preorder.filterMap t.node?).filter Tree.Node.isError)
      (checkParseErrors text t) := by
  unfold checkParseErrors
  induction t.preorder.filterMap t.node? with
  | nil => exact List.Forall₂.nil
  | cons n ns ih =>
      rw [List.filterMap_cons, List.filter_cons]
      by_cases he : n.isError = true
      · rw [if_pos he, if_pos he]
        exact List.Forall₂.cons (shows_unreadableNode text n) ih
      · rw [if_neg he, if_neg he]
        exact ih

/-! ## Every finding -/

/-- Where a finding lies, by its rule. -/
inductive Covers (text : List Char) : Diagnostic → Prop where
  | whole : Covers text ⟨0, byteLength text, .error, "Unclosed double quote", .quotes⟩
  | bracket {what : String} {m : Nat × Char} (hwhat : what ∈ bracketFaults)
      (hm : m ∈ marks text) : Covers text (bracketFinding what m.1 m.2)
  | node (n : Tree.Node) : Covers text (unreadableNode text n.span)
  | emptySelector {place : Nat} {message : String}
      (h : FirstAt text ['\x7b', '\x7d'] place) :
      Covers text ⟨place, place + 2, .warning, message, .emptySelector⟩

theorem covers_of_mem_checkRule (h : d ∈ checkRule text tree rule) : Covers text d := by
  cases rule with
  | quotes =>
      have hd : d ∈ checkQuotes text := h
      unfold checkQuotes at hd
      split at hd
      · exact absurd hd List.not_mem_nil
      · rw [List.mem_singleton.mp hd]
        exact .whole
  | brackets =>
      obtain ⟨what, hwhat, m, hm, rfl⟩ := bracketFinding_of_mem h
      exact .bracket hwhat hm
  | parseErrors =>
      cases tree with
      | none => exact absurd h List.not_mem_nil
      | some t =>
          obtain ⟨n, -, hn⟩ := List.mem_filterMap.mp h
          split at hn
          · exact Option.some.inj hn ▸ .node n
          · exact absurd hn (by simp)
  | emptySelector =>
      obtain ⟨place, hplace, rfl⟩ := List.mem_map.mp h
      obtain ⟨k, rfl, hfirst⟩ := emptySelector?_eq_some_iff.mp (Option.mem_toList.mp hplace)
      rw [Nat.zero_add]
      exact .emptySelector hfirst

theorem covers_of_mem_check (h : d ∈ check o text tree) : Covers text d :=
  covers_of_mem_checkRule (mem_checkRule_of_mem_check h)

/-- Where the word stands, it is what is cut out. -/
theorem FirstAt.slice? {word : List Char} {place : Nat} (h : FirstAt text word place) :
    slice? text place (place + byteLength word) = some word := by
  obtain ⟨⟨pre, post, rfl, rfl⟩, -⟩ := h
  exact Text.slice?_append pre word post

theorem isBoundary_of_slice? {start stop : Nat} {w : List Char}
    (h : slice? text start stop = some w) :
    start ≤ stop ∧ IsBoundary text start ∧ IsBoundary text stop := by
  unfold slice? at h
  split at h
  · assumption
  · exact absurd h (by simp)

theorem le_byteLength_of_isBoundary {n : Nat} (h : IsBoundary text n) : n ≤ byteLength text :=
  h ▸ Text.clamp_le_byteLength text n

/-- The bracket that a finding is about is what it covers. -/
theorem slice?_of_mem_marks {m : Nat × Char} (hm : m ∈ marks text) :
    slice? text m.1 (m.1 + 1) = some [m.2] := by
  have hslice := Text.slice?_located (List.mem_of_mem_filter hm)
  rwa [utf8Size_of_isBracket (isBracket_of_mem_marks hm)] at hslice

/-- What the search through the text finds lies between characters, in order. -/
theorem Covers.isBoundary (h : Covers text d) (hrule : d.rule ≠ .parseErrors) :
    d.start ≤ d.stop ∧ IsBoundary text d.start ∧ IsBoundary text d.stop := by
  cases h with
  | whole =>
      have hzero : IsBoundary text 0 :=
        Text.isBoundary_iff.mpr ⟨[], text, rfl, rfl⟩
      have hend : IsBoundary text (byteLength text) :=
        Text.isBoundary_iff.mpr ⟨text, [], (List.append_nil text).symm, rfl⟩
      exact ⟨Nat.zero_le _, hzero, hend⟩
  | bracket _ hm => exact isBoundary_of_slice? (slice?_of_mem_marks hm)
  | node n => exact absurd rfl hrule
  | emptySelector hfirst => exact isBoundary_of_slice? hfirst.slice?

/-- **No finding reaches out of the text**, whatever the spans of the tree are. -/
theorem Covers.within (h : Covers text d) : d.start ≤ d.stop ∧ d.stop ≤ byteLength text := by
  by_cases hrule : d.rule = .parseErrors
  · cases h with
    | node n => exact ⟨Nat.min_le_right .., Nat.min_le_right ..⟩
    | whole => exact absurd hrule (by simp)
    | bracket => exact absurd hrule (by simp [bracketFinding])
    | emptySelector => exact absurd hrule (by simp)
  · obtain ⟨hle, -, hstop⟩ := h.isBoundary hrule
    exact ⟨hle, le_byteLength_of_isBoundary hstop⟩

/--
**What every finding covers.** Whatever the text, the rules that are on and the table of nodes, a
finding is a stretch of the text, and one that does not come from the table lies between characters.
One about a bracket covers just the bracket that its message names, and one about an empty selector
covers the first. Without a table, for a blank text and with the rule off nothing is said about nodes;
otherwise, if the table was built or its links form no cycle, a visit of all of it comes to an end,
and each visit of a node that could not be read is shown by one finding, in the order of the visits.
-/
theorem findings_placed (text : List Char) (o : Options) (tree : Option Tree) :
    (∀ d ∈ check o text tree, d.start ≤ d.stop ∧ d.stop ≤ byteLength text) ∧
    (∀ d ∈ check o text tree, d.rule ≠ .parseErrors →
      IsBoundary text d.start ∧ IsBoundary text d.stop) ∧
    (∀ d ∈ check o text tree, d.rule = .brackets → ∃ what ∈ bracketFaults, ∃ b,
      isBracket b = true ∧ d.message = what ++ " '" ++ String.ofList [b] ++ "'" ∧
        slice? text d.start d.stop = some [b]) ∧
    (∀ d ∈ check o text tree, d.rule = .emptySelector →
      FirstAt text ['\x7b', '\x7d'] d.start ∧
        slice? text d.start d.stop = some ['\x7b', '\x7d']) ∧
    (tree = none ∨ o.parseErrors = false ∨ text.all Text.isBlank = true →
      (check o text tree).filter (fun d => d.rule = .parseErrors) = []) ∧
    ∀ t, tree = some t → t.Built ∨ t.Acyclic →
      o.parseErrors = true → text.all Text.isBlank = false →
      ∃ ids, t.visit [t.root] = some ids ∧
        List.Forall₂ (Shows text) ((ids.filterMap t.node?).filter Tree.Node.isError)
          ((check o text tree).filter fun d => d.rule = .parseErrors) := by
  refine ⟨fun d hd => (covers_of_mem_check hd).within,
    fun d hd hrule => ((covers_of_mem_check hd).isBoundary hrule).2, ?_, ?_, ?_, ?_⟩
  · intro d hd hrule
    cases covers_of_mem_check hd with
    | @bracket what m hwhat hm =>
        exact ⟨what, hwhat, m.2, isBracket_of_mem_marks hm, rfl, slice?_of_mem_marks hm⟩
    | whole => exact absurd hrule (by simp)
    | node n => exact absurd hrule (by simp [unreadableNode])
    | emptySelector => exact absurd hrule (by simp)
  · intro d hd hrule
    cases covers_of_mem_check hd with
    | emptySelector hfirst => exact ⟨hfirst, hfirst.slice?⟩
    | whole => exact absurd hrule (by simp)
    | bracket => exact absurd hrule (by simp [bracketFinding])
    | node n => exact absurd hrule (by simp [unreadableNode])
  · intro hoff
    rw [filter_check]
    rcases hoff with rfl | hoff | hblank
    · exact ite_self []
    · simp [Options.enables, hoff]
    · simp [hblank]
  · rintro t rfl htree hon hblank
    have hacyclic : t.Acyclic := htree.elim Tree.Built.acyclic id
    obtain ⟨-, -, hvisit⟩ := hacyclic.walks_end
    refine ⟨_, hvisit, ?_⟩
    rw [filter_check, if_pos (by simp [Options.enables, hon, hblank])]
    exact shows_checkParseErrors text t

/-- An inverted span becomes empty and one that reaches too far is cut; neither begins at a character
of the text, so both nodes are shown without text. -/
theorem findings_placed_strayTree :
    Checked.strayTree.Acyclic ∧
      (∃ ids, Checked.strayTree.visit [0] = some ids ∧
        List.Forall₂ (Shows "é\x7b".toList)
          ((ids.filterMap Checked.strayTree.node?).filter Tree.Node.isError)
          ((check .all "é\x7b".toList (some Checked.strayTree)).filter
            fun d => d.rule = .parseErrors)) ∧
      (check .all "é\x7b".toList (some Checked.strayTree)).filter
          (fun d => d.rule = .parseErrors) =
        [⟨1, 1, .error, "Syntax error: ", .parseErrors⟩,
          ⟨1, 3, .error, "Syntax error: ", .parseErrors⟩] := by
  obtain ⟨-, -, -, -, -, hshown⟩ :=
    findings_placed "é\x7b".toList .all (some Checked.strayTree)
  exact ⟨Checked.strayTree_acyclic,
    hshown _ rfl (Or.inr Checked.strayTree_acyclic) rfl (by decide), by decide⟩

end LogQL.Diagnostic
