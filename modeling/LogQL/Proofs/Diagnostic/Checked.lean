import LogQL.Diagnostic.Check
import LogQL.Proofs.Context.Checked
import LogQL.Proofs.Diagnostic.BracketFindings
import LogQL.Proofs.Diagnostic.Lines

/-!
# Checking a text, step by step

The four rules as scans of bytes and, for what the parser could not read, a visit of the tree that
has no bound. `none` is a visit that does not end. No rule cuts the text: brackets and quotes are
single bytes, and a node whose span does not fit the text is shown without its text. So the check
comes to an end on every tree without a cycle, with the findings of `check` (`check_eq`).

With the contexts and the positions, that makes all that is ever done to a text
(`analyses_return`).
-/

namespace LogQL.Checked

open Diagnostic (Options Rule)

variable {text : List Char} {tree : Option Tree}

/-- An odd number of double quotes leaves one open. -/
def checkQuotes (text : List Char) : List Diagnostic :=
  if ((Text.byteChars 0 text).filter (·.2 == '"')).length % 2 = 0 then []
  else [⟨0, (Text.bytes text).length, .error, "Unclosed double quote", .quotes⟩]

/-- The nodes that the parser could not read, in document order. -/
noncomputable def checkParseErrors (text : List Char) (tree : Tree) : Option (List Diagnostic) := do
  let ids ← tree.visit [tree.root]
  return (ids.filterMap tree.node?).filterMap fun n =>
    if n.isError then some (Diagnostic.unreadableNode text n.span) else none

/-- The findings of one rule. -/
noncomputable def checkRule (text : List Char) (tree : Option Tree) :
    Rule → Option (List Diagnostic)
  | .quotes => some (checkQuotes text)
  | .brackets => some (Diagnostic.matchBrackets [] (Text.byteChars 0 text))
  | .parseErrors =>
    match tree with
    | some tree => checkParseErrors text tree
    | none => some []
  | .emptySelector => some (Diagnostic.checkEmptySelector text)

/-- The findings of all rules that are on. -/
noncomputable def check (o : Options) (text : List Char) (tree : Option Tree) :
    Option (List Diagnostic) :=
  if text.all Text.isBlank then some []
  else do
    let findings ← (Rule.all.filter o.enables).mapM (checkRule text tree)
    return findings.flatten

theorem checkQuotes_eq (text : List Char) : checkQuotes text = Diagnostic.checkQuotes text := by
  have hascii : ∀ c : Char, (c == '"') = true → c.toNat < 0x80 := by
    intro c hc
    rw [beq_iff_eq.mp hc]
    decide
  have hcount : ((Text.located 0 text).filter (·.2 == '"')).length = text.count '"' := by
    rw [← List.countP_eq_length_filter, List.count, ← Text.map_snd_located 0 text,
      List.countP_map, Text.map_snd_located]
    rfl
  rw [checkQuotes, Diagnostic.checkQuotes, Text.filter_byteChars hascii, hcount, Text.length_bytes]

theorem lt_of_isBracket {c : Char} (h : Diagnostic.isBracket c = true) : c.toNat < 0x80 := by
  rcases Bool.or_eq_true_iff.mp h with h | h
  · obtain ⟨closer, hcloser⟩ := Option.isSome_iff_exists.mp h
    rcases Diagnostic.closing?_eq_some hcloser with ⟨rfl, -⟩ | ⟨rfl, -⟩ | ⟨rfl, -⟩ <;> decide
  · simp only [Diagnostic.isClosing, Bool.or_eq_true, beq_iff_eq] at h
    rcases h with (rfl | rfl) | rfl <;> decide

/-- Bytes that are no brackets are passed over, like characters that are none. -/
theorem matchBrackets_byteChars (text : List Char) :
    Diagnostic.matchBrackets [] (Text.byteChars 0 text) = Diagnostic.checkBrackets text := by
  rw [Diagnostic.checkBrackets, Diagnostic.matchBrackets_filter,
    Text.filter_byteChars fun _ => lt_of_isBracket, ← Diagnostic.matchBrackets_filter]

/-- **Every rule comes to an end**, with its findings. -/
theorem checkRule_eq (h : ∀ t, tree = some t → t.Acyclic) (rule : Rule) :
    checkRule text tree rule = some (Diagnostic.checkRule text tree rule) := by
  cases rule with
  | quotes => exact congrArg some (checkQuotes_eq text)
  | brackets => exact congrArg some (matchBrackets_byteChars text)
  | emptySelector => rfl
  | parseErrors =>
      cases tree with
      | none => rfl
      | some t =>
          obtain ⟨-, -, hvisit⟩ := (h t rfl).walks_end
          show checkParseErrors text t = _
          rw [checkParseErrors, hvisit]
          rfl

/-- **The check comes to an end**, with the findings of all rules that are on. -/
theorem check_eq (h : ∀ t, tree = some t → t.Acyclic) (o : Options) :
    check o text tree = some (Diagnostic.check o text tree) := by
  have hall : ∀ rules : List Rule, rules.mapM (checkRule text tree) =
      some (rules.map (Diagnostic.checkRule text tree)) := by
    intro rules
    induction rules with
    | nil => rfl
    | cons rule rules ih => rw [List.mapM_cons, checkRule_eq h, ih]; rfl
  rw [check, Diagnostic.check]
  split
  · rfl
  · rw [hall]
    rfl

/-! ## All analyses -/

/--
**No analysis of a text fails or runs for ever.** With any tree that was built, and with any table
of nodes whose links form no cycle, wherever they lead and whatever the spans are, a request is
classified and a text is checked, and every offset of a text has a position. No slice, index or
difference on the way is out of range, and what comes out is the context, the findings and the
position.
-/
theorem analyses_return (text : List Char) (tree : Option Tree)
    (h : ∀ t, tree = some t → t.Built ∨ t.Acyclic) :
    (∀ cursor isExplicit,
      let r : Request := ⟨text, cursor, tree, isExplicit⟩
      context r = some r.context?) ∧
    (∀ o, check o text tree = some (Diagnostic.check o text tree)) ∧
    ∀ offset, position text offset = some (Position.ofOffset text offset) := by
  have hacyclic : ∀ t, tree = some t → t.Acyclic := by
    intro t ht
    rcases h t ht with hbuilt | hacyclic
    · exact hbuilt.acyclic
    · exact hacyclic
  exact ⟨fun cursor isExplicit => context_eq hacyclic, check_eq hacyclic, position_eq text⟩

/-- A table of nodes whose links lead nowhere and whose spans do not fit the text. -/
def strayTree : Tree :=
  ⟨#[⟨.pipeline, ⟨5, 1⟩, true, some 7, [1, 9]⟩, ⟨.string, ⟨1, 100⟩, true, none, []⟩], 0⟩

theorem strayTree_acyclic : strayTree.Acyclic := by
  have hparent : ∀ id p, strayTree.parent? id = some p → id < p := by
    intro id p hp
    rcases id with _ | _ | id
    · exact Option.some.inj hp ▸ (by decide : 0 < 7)
    · exact absurd hp (by simp [Tree.parent?, Tree.node?, strayTree])
    · exact absurd hp (by simp [Tree.parent?, Tree.node?, strayTree])
  have hchild : ∀ id child, child ∈ strayTree.children id → id < child := by
    intro id child hc
    rcases id with _ | _ | id
    · have hmem : child ∈ [1, 9] := hc
      simp only [List.mem_cons, List.not_mem_nil, or_false] at hmem
      omega
    · exact absurd hc List.not_mem_nil
    · exact absurd hc (by simp [Tree.children, Tree.node?, strayTree])
  exact Tree.acyclic_of_order hparent hchild

/-- The text is looked at as it would be without the table, and its nodes are shown without text. -/
theorem analyses_return_strayTree :
    context ⟨"é\x7b".toList, 40, some strayTree, false⟩ =
        some (some ⟨.labelName, 3, .textLabelName⟩) ∧
      check .all "é\x7b".toList (some strayTree) = some
        [⟨2, 3, .error, "Unclosed bracket '\x7b'", .brackets⟩,
          ⟨1, 1, .error, "Syntax error: ", .parseErrors⟩,
          ⟨1, 3, .error, "Syntax error: ", .parseErrors⟩] ∧
      position "é\x7b".toList 1 = some ⟨0, 0⟩ := by
  obtain ⟨hcontext, hcheck, hposition⟩ := analyses_return "é\x7b".toList (some strayTree)
    fun t ht => Or.inr (Option.some.inj ht ▸ strayTree_acyclic)
  refine ⟨(hcontext 40 false).trans ?_, (hcheck .all).trans ?_, (hposition 1).trans ?_⟩
  · decide
  · decide
  · decide

end LogQL.Checked
