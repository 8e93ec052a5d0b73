import LogQL.Proofs.Completion.Sources
import LogQL.Proofs.Diagnostic.Rules

/-!
# Quotes that a completion brings along

A value that follows an equals sign has no quotes in the text yet, so its suggestion brings them: one
in front of the value and one behind it. The value itself is inserted as it is. Nothing in it is
escaped, and the check for quotes counts them all without looking for escapes, so what accepting a
suggestion does to the verdict of that check is decided by the quotes of the value
(`accepted_quotes`). Two are added by the suggestion, and they cancel out.

Where the text is cut does not matter for this. Such a suggestion replaces nothing, and a text has as
many quotes as its two parts together.
-/

namespace LogQL

variable {τ : Type}

namespace Request

open Diagnostic (checkQuotes)

/-- The text after a suggestion is accepted: it stands in for what is between the anchor and the
cursor. -/
def accept (r : Request) (anchor : Nat) (x : Suggestion) : List Char :=
  Text.upTo r.text anchor ++ x.insertion.toList ++ Text.after r.text r.place

/-- What becomes of the quotes of a text when the suggestion for a value is accepted. -/
structure AddsQuotes (r : Request) (anchor : Nat) (value : String) (x : Suggestion) : Prop where
  /-- The value stands between two quotes. -/
  quoted : x.insertion.toList = '"' :: value.toList ++ ['"']
  /-- These are the only ones that are added to those of the value. -/
  count_eq : x.insertion.toList.count '"' = value.toList.count '"' + 2
  /-- The verdict stays just when the value brings an even number of its own. -/
  verdict : (checkQuotes (r.accept anchor x) = [] ↔ checkQuotes r.text = []) ↔
    Even (value.toList.count '"')

variable {r : Request} {ctx : Context} {label value : String} {x : Suggestion}

theorem checkQuotes_eq_nil_iff {text : List Char} :
    checkQuotes text = [] ↔ Even (text.count '"') := by
  rw [Nat.even_iff, checkQuotes]
  split <;> simp [*]

/-- A suggestion that replaces nothing adds its quotes to those of the text. -/
theorem count_accept (r : Request) (x : Suggestion) :
    (r.accept r.place x).count '"' = r.text.count '"' + x.insertion.toList.count '"' := by
  have hparts : Text.upTo r.text r.place ++ Text.after r.text r.place = r.text :=
    Text.upTo_append_after ..
  have hcount := congrArg (List.count '"') hparts
  rw [List.count_append] at hcount
  rw [accept, List.count_append, List.count_append]
  omega

/-- **What the suggestion for a bare value does to the quotes of the text.** -/
theorem addsQuotes_of_isTextValue (h : x.IsTextValue value) : r.AddsQuotes r.place value x := by
  have hquoted : x.insertion.toList = '"' :: value.toList ++ ['"'] := by
    rw [h.insertion_eq, String.toList_append, String.toList_append]
    rfl
  have hcount : x.insertion.toList.count '"' = value.toList.count '"' + 2 := by
    rw [hquoted, List.cons_append, List.count_cons_self, List.count_append,
      List.count_singleton_self]
  refine ⟨hquoted, hcount, ?_⟩
  rw [checkQuotes_eq_nil_iff, checkQuotes_eq_nil_iff, count_accept, hcount, Nat.even_add,
    Nat.even_add, iff_true_right (by decide : Even 2)]
  tauto

/-- A value that is due after an equals sign replaces nothing. -/
theorem anchor_of_textLabelValue (h : r.context? = some ctx) (hrule : ctx.rule = .textLabelValue) :
    ctx.anchor = r.place := by
  have hanchored : Context.Anchored r ctx.rule ctx.anchor := by
    unfold context? at h
    split at h
    · exact absurd h (by simp)
    rcases Context.of_orElse h with h | h
    · -- the rules of a tree have names of their own
      obtain ⟨t, -, h⟩ := Option.bind_eq_some_iff.mp h
      rcases Context.of_orElse h with h | h
      · exact absurd ((Context.onMatcher?_anchor h).1.symm.trans hrule) (by decide)
      rcases Context.of_orElse h with h | h
      · exact absurd ((Context.inMatcherString?_anchor h).1.symm.trans hrule) (by decide)
      · exact absurd ((Context.inPipeline?_anchor h).1.symm.trans hrule) (by decide)
    · exact Context.anchored_of_textContext? h
  rw [hrule] at hanchored
  generalize ctx.anchor = anchor at hanchored
  cases hanchored with
  | atCursor _ => rfl
  | atWord hword => rcases hword with hword | hword <;> cases hword
  | atNode hnode _ _ _ => rcases hnode with hnode | hnode <;> cases hnode

/-- **Accepting a value keeps the verdict about quotes just when the value has an even number of
them.** Where the text before the cursor calls for a value, the source is asked for the values of
one label, and each becomes a suggestion that inserts it at the cursor between two quotes, so that
there are exactly two in what is inserted just when there is none in the value. -/
theorem accepted_quotes (h : r.context? = some ctx) (hrule : ctx.rule = .textLabelValue)
    (p : Labels.Source τ) (s : τ) :
    ∃ label offer, ctx.intent = .labelValue label .double ∧
      (r.resolve p s).offer = some offer ∧ offer.anchor = r.place ∧
      List.Forall₂ (fun value x => r.AddsQuotes offer.anchor value x ∧
          (x.insertion.toList.count '"' = 2 ↔ '"' ∉ value.toList))
        (Labels.valuesOf (p (.values label) s).1) offer.suggestions := by
  have hanchor := anchor_of_textLabelValue h hrule
  obtain ⟨label, hintent⟩ : ∃ label, ctx.intent = .labelValue label .double := by
    have hcalls := Context.callsFor_of_context? h
    rw [hrule] at hcalls
    generalize ctx.intent = intent at hcalls
    cases hcalls with
    | textLabelValue label => exact ⟨label, rfl⟩
  have hquestion : ctx.intent.question? = some (.values label) := by rw [hintent]; rfl
  refine ⟨label, _, hintent, congrArg Resolution.offer (resolve_question h hquestion), hanchor, ?_⟩
  rw [hintent, hanchor]
  refine (Suggestion.forall₂_ofBareValue label _).imp fun value x hx => ?_
  have hadds : r.AddsQuotes r.place value x := addsQuotes_of_isTextValue hx
  refine ⟨hadds, ?_⟩
  rw [hadds.count_eq, ← List.count_eq_zero]
  omega

/-- A source that has these values for every label. -/
def valuesSource (values : List String) : Labels.Source Unit :=
  fun _ => pure (.ok ⟨values, .remote⟩)

/-- A request for the values of a label. -/
def afterEquals : Request := ⟨"\x7bjob=".toList, 5, none, false⟩

/-- A value with a quotation in it brings four quotes and keeps the verdict. -/
theorem accepted_quotes_quotation :
    afterEquals.context? = some ⟨.labelValue "job" .double, 5, .textLabelValue⟩ ∧
      ∃ x, (afterEquals.resolve (valuesSource ["say \"hi\""]) ()).offer = some ⟨5, [x]⟩ ∧
        x.insertion.toList.count '"' = 4 ∧
        (checkQuotes (afterEquals.accept 5 x) = [] ↔ checkQuotes afterEquals.text = []) := by
  have hcontext : afterEquals.context? = some ⟨.labelValue "job" .double, 5, .textLabelValue⟩ := by
    decide
  obtain ⟨label, offer, -, hoffer, hanchor, hadds⟩ :=
    accepted_quotes hcontext rfl (valuesSource ["say \"hi\""]) ()
  obtain ⟨anchor, suggestions⟩ := offer
  have hplace : anchor = 5 := hanchor
  subst hplace
  cases hadds with
  | cons hx hrest =>
      cases hrest with
      | nil =>
          exact ⟨hcontext, _, hoffer, hx.1.count_eq, hx.1.verdict.mpr (by decide)⟩

/-- A value with one double quote in it changes the verdict, and is inserted with three of them. -/
theorem not_accepted_quotes :
    ¬∀ (text : List Char) (cursor : Nat) (isExplicit : Bool) (ctx : Context)
      (p : Labels.Source Unit) (offer : Completion) (x : Suggestion),
      let r : Request := ⟨text, cursor, none, isExplicit⟩
      r.context? = some ctx → ctx.rule = .textLabelValue →
      (r.resolve p ()).offer = some offer → x ∈ offer.suggestions →
      (checkQuotes (r.accept offer.anchor x) = [] ↔ checkQuotes text = []) ∧
        x.insertion.toList.count '"' = 2 ∧ x.insertion.toList.head? = some '"' ∧
        x.insertion.toList.getLast? = some '"' := by
  intro h
  have hbroken := h afterEquals.text 5 false ⟨.labelValue "job" .double, 5, .textLabelValue⟩
    (valuesSource ["a\"b"]) ⟨5, [.ofBareValue "job" "a\"b"]⟩ (.ofBareValue "job" "a\"b")
    (by decide) rfl rfl List.mem_cons_self
  exact absurd hbroken.1 (by decide)

end Request

end LogQL
