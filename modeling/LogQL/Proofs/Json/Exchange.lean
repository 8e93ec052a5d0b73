import LogQL.Proofs.Json.Records
import LogQL.Proofs.Settings.Fields

/-!
# What leaves as text and comes back

Every kind of value that is exchanged as text is written without loss, be it compactly or laid out
over lines: the text is read as the encoding of the value (`read?_write`, `read?_pretty`), and the
encoding is decoded as the value (`Lossless`). A value may have been read from a text that was
written in another way, with fields left out or as an array; what is written then is the one text
that stays as it is when it is read and written again.

Numbers that are not words by their type, offsets and the indices of nodes, have to fit into one.
-/

namespace LogQL

namespace Json

open Codec Document

/-! ## Records -/

theorem lossless_span : Lossless Tree.Span fun s => s.start ≤ wordMax ∧ s.stop ≤ wordMax where
  decode?_encode s h := by
    have hfields : fields? ["from", "to"] (encode s) =
        some [some (encode s.start), some (encode s.stop)] := fields?_obj (by decide) rfl rfl
    refine Option.bind_eq_some_iff.mpr ⟨_, hfields, ?_⟩
    simp [lossless_nat.field?_encode h.1, lossless_nat.field?_encode h.2]
  fits_of_decode? v s h := by
    obtain ⟨values, -, h⟩ := Option.bind_eq_some_iff.mp h
    split at h
    · simp only [Option.bind_eq_bind, Option.bind_eq_some_iff] at h
      obtain ⟨_, hstart, _, hstop, h⟩ := h
      cases h
      exact ⟨lossless_nat.fits_of_field? hstart, lossless_nat.fits_of_field? hstop⟩
    · cases h

theorem lossless_position : Lossless Position Any := by
  refine lossless_of_all fun p => ?_
  have hfields : fields? ["line", "character"] (encode p) =
      some [some (encode p.line), some (encode p.character)] := fields?_obj (by decide) rfl rfl
  refine Option.bind_eq_some_iff.mpr ⟨_, hfields, ?_⟩
  simp [lossless_uint32.field?_encode (any _)]

theorem lossless_range : Lossless Position.Range Any := by
  refine lossless_of_all fun r => ?_
  have hfields : fields? ["start", "end"] (encode r) =
      some [some (encode r.start), some (encode r.stop)] := fields?_obj (by decide) rfl rfl
  refine Option.bind_eq_some_iff.mpr ⟨_, hfields, ?_⟩
  simp [lossless_position.field?_encode (any _)]

theorem lossless_diagnostic :
    Lossless Diagnostic fun d => d.start ≤ wordMax ∧ d.stop ≤ wordMax where
  decode?_encode d h := by
    have hfields : fields? ["from", "to", "severity", "message", "rule"] (encode d) =
        some [some (encode d.start), some (encode d.stop), some (encode d.severity),
          some (encode d.message), some (encode d.rule)] := fields?_obj (by decide) rfl rfl
    refine Option.bind_eq_some_iff.mpr ⟨_, hfields, ?_⟩
    simp [lossless_nat.field?_encode h.1, lossless_nat.field?_encode h.2,
      lossless_severity.field?_encode (any _), lossless_string.field?_encode (any _),
      lossless_rule.field?_encode (any _)]
  fits_of_decode? v d h := by
    obtain ⟨values, -, h⟩ := Option.bind_eq_some_iff.mp h
    split at h
    · simp only [Option.bind_eq_bind, Option.bind_eq_some_iff] at h
      obtain ⟨_, hstart, _, hstop, _, -, _, -, _, -, h⟩ := h
      cases h
      exact ⟨lossless_nat.fits_of_field? hstart, lossless_nat.fits_of_field? hstop⟩
    · cases h

/-- A description or a text to insert is left out when there is none. -/
theorem lossless_suggestion : Lossless Suggestion Any := by
  refine lossless_of_all fun s => ?_
  have hmembers : encode s = obj (membersOf ["label", "kind", "description", "insert_text"]
      [some (encode s.label), some (encode s.kind), s.description.map encode,
        s.insertText.map encode]) := by
    obtain ⟨label, kind, description, insertText⟩ := s
    cases description <;> cases insertText <;> rfl
  have hfields : fields? ["label", "kind", "description", "insert_text"] (encode s) =
      some [some (encode s.label), some (encode s.kind), s.description.map encode,
        s.insertText.map encode] := hmembers ▸ fields?_obj (by decide) rfl rfl
  have hgiven : ∀ text : Option String,
      fieldOr? none decode? (text.map encode) = some text := by
    intro text
    cases text <;> rfl
  refine Option.bind_eq_some_iff.mpr ⟨_, hfields, ?_⟩
  simp [lossless_string.field?_encode (any _), lossless_wordKind.field?_encode (any _), hgiven]

theorem lossless_completion : Lossless Completion (·.anchor ≤ wordMax) where
  decode?_encode c h := by
    have hfields : fields? ["anchor", "suggestions"] (encode c) =
        some [some (encode c.anchor), some (encode c.suggestions)] :=
      fields?_obj (by decide) rfl rfl
    refine Option.bind_eq_some_iff.mpr ⟨_, hfields, ?_⟩
    simp [lossless_nat.field?_encode h, lossless_suggestion.list.field?_encode (any _)]
  fits_of_decode? v c h := by
    obtain ⟨values, -, h⟩ := Option.bind_eq_some_iff.mp h
    split at h
    · simp only [Option.bind_eq_bind, Option.bind_eq_some_iff] at h
      obtain ⟨_, hanchor, _, -, h⟩ := h
      cases h
      exact lossless_nat.fits_of_field? hanchor
    · cases h

theorem lossless_entry {α : Type} [Codec α] (hdata : Lossless α Any) :
    Lossless (Cache.Entry α) Any := by
  refine lossless_of_all fun e => ?_
  have hfields : fields? ["data", "fetched_at_millis"] (encode e) =
      some [some (encode e.data), some (encode e.storedAt)] := fields?_obj (by decide) rfl rfl
  refine Option.bind_eq_some_iff.mpr ⟨_, hfields, ?_⟩
  simp [hdata.field?_encode (any _), lossless_uint64.field?_encode (any _)]

theorem lossless_lifetime : Lossless Lifetime Any := by
  refine lossless_of_all fun l => ?_
  have hfields : fields? ["ttl_millis"] (encode l) = some [some (encode l.millis)] :=
    fields?_obj (by decide) rfl rfl
  refine Option.bind_eq_some_iff.mpr ⟨_, hfields, ?_⟩
  simp [lossless_uint64.field?_encode (any _)]

theorem lossless_counters : Lossless Cache.Counters Any := by
  refine lossless_of_all fun c => ?_
  have hfields : fields? ["hits", "misses", "stale_hits", "stores"] (encode c) =
      some [some (encode c.hits), some (encode c.misses), some (encode c.staleHits),
        some (encode c.stores)] := fields?_obj (by decide) rfl rfl
  refine Option.bind_eq_some_iff.mpr ⟨_, hfields, ?_⟩
  simp [lossless_uint64.field?_encode (any _)]

/-! ## Settings -/

/-- Every field of settings is written, so no standard value takes its place. -/
theorem fieldOr?_encode {α : Type} [Codec α] (h : Lossless α Any) (standard a : α) :
    fieldOr? standard decode? (some (encode a)) = some a := h.decode?_encode a (any a)

theorem lossless_rules : Lossless Diagnostic.Options Any :=
  lossless_of_all fun o => Diagnostic.Options.ofDocument?_eq_some_iff.mpr
    ⟨_, _, _, _, fields?_obj (by decide) rfl rfl, fieldOr?_encode lossless_bool _ _,
      fieldOr?_encode lossless_bool _ _, fieldOr?_encode lossless_bool _ _,
      fieldOr?_encode lossless_bool _ _⟩

theorem lossless_optionalText : Lossless (Option String) Any := lossless_string.option fun _ => rfl

theorem lossless_config : Lossless Fetch.Config Any :=
  lossless_of_all fun c => Fetch.Config.ofDocument?_eq_some_iff.mpr
    ⟨_, _, _, _, _, _, _, fields?_obj (by decide) rfl rfl, fieldOr?_encode lossless_uint64 _ _,
      fieldOr?_encode lossless_uint64 _ _, fieldOr?_encode lossless_optionalText _ _,
      fieldOr?_encode lossless_string _ _, fieldOr?_encode lossless_uint64 _ _,
      fieldOr?_encode lossless_bool _ _, fieldOr?_encode lossless_uint64 _ _⟩

theorem lossless_credentials : Lossless Fetch.Credentials Any :=
  lossless_of_all fun c => Fetch.Credentials.ofDocument?_eq_some_iff.mpr
    ⟨_, _, fields?_obj (by decide) rfl rfl, lossless_string.field?_encode (any _),
      fieldOr?_encode lossless_optionalText _ _⟩

theorem lossless_fetchOptions : Lossless Fetch.Options Any :=
  lossless_of_all fun o => Fetch.Options.ofDocument?_eq_some_iff.mpr
    ⟨_, _, _, _, _, fields?_obj (by decide) rfl rfl, fieldOr?_encode lossless_headers _ _,
      fieldOr?_encode lossless_optionalText _ _,
      fieldOr?_encode (lossless_credentials.option fun _ => rfl) _ _,
      fieldOr?_encode lossless_optionalText _ _,
      fieldOr?_encode (lossless_uint64.option fun _ => rfl) _ _⟩

theorem lossless_settings : Lossless Settings Any :=
  lossless_of_all fun s => Settings.ofDocument?_eq_some_iff.mpr
    ⟨_, _, _, _, _, _, _, fields?_obj (by decide) rfl rfl, fieldOr?_encode lossless_optionalText _ _,
      fieldOr?_encode lossless_uint64 _ _, fieldOr?_encode lossless_fetchOptions _ _,
      fieldOr?_encode lossless_bool _ _, fieldOr?_encode lossless_bool _ _,
      fieldOr?_encode lossless_rules _ _, fieldOr?_encode lossless_config _ _⟩

/-! ## Texts -/

/-- Read a text as a value of this type and write the value. -/
def rewrite? (α : Type) [Codec α] (text : String) : Option String :=
  (parse? text).map fun a : α => write (encode a)

/-- Values of this type that fit are exchanged as texts: what is written is read as the value, and a
text that was read and written is left as it is by being read and written again. -/
structure Exchanged (α : Type) [Codec α] (fits : α → Prop) : Prop where
  parse?_write : ∀ a, fits a → parse? (write (encode a)) = some a
  parse?_pretty : ∀ a, fits a → parse? (pretty (encode a)) = some a
  rewrite?_rewrite : ∀ text text', rewrite? α text = some text' → rewrite? α text' = some text'

theorem Lossless.exchanged {α : Type} [Codec α] {fits : α → Prop} (h : Lossless α fits) :
    Exchanged α fits where
  parse?_write a ha := by rw [parse?, read?_write, Option.bind_some, h.decode?_encode a ha]
  parse?_pretty a ha := by rw [parse?, read?_pretty, Option.bind_some, h.decode?_encode a ha]
  rewrite?_rewrite text text' hrewrite := by
    obtain ⟨a, ha, rfl⟩ := Option.map_eq_some_iff.mp hrewrite
    obtain ⟨v, -, hv⟩ := Option.bind_eq_some_iff.mp ha
    rw [rewrite?, parse?, read?_write, Option.bind_some,
      h.decode?_encode a (h.fits_of_decode? v a hv), Option.map_some]

/-- **Whatever leaves as text comes back as it was.** -/
theorem exchanged_all :
    Exchanged Tree.Kind Any ∧
    Exchanged Nat (· ≤ wordMax) ∧
    Exchanged Tree.Span (fun s => s.start ≤ wordMax ∧ s.stop ≤ wordMax) ∧
    Exchanged Position Any ∧
    Exchanged Position.Range Any ∧
    Exchanged Diagnostic (fun d => d.start ≤ wordMax ∧ d.stop ≤ wordMax) ∧
    Exchanged Diagnostic.Options Any ∧
    Exchanged Suggestion Any ∧
    Exchanged Completion (·.anchor ≤ wordMax) ∧
    Exchanged Context.QuoteStyle Any ∧
    Exchanged (Cache.Entry (List String)) Any ∧
    Exchanged Lifetime Any ∧
    Exchanged Cache.Counters Any ∧
    Exchanged Fetch.Config Any ∧
    Exchanged Fetch.Credentials Any ∧
    Exchanged Fetch.Options Any ∧
    Exchanged Settings Any :=
  ⟨lossless_kind.exchanged, lossless_nat.exchanged, lossless_span.exchanged,
    lossless_position.exchanged, lossless_range.exchanged, lossless_diagnostic.exchanged,
    lossless_rules.exchanged, lossless_suggestion.exchanged, lossless_completion.exchanged,
    lossless_quoteStyle.exchanged, (lossless_entry lossless_string.list).exchanged,
    lossless_lifetime.exchanged, lossless_counters.exchanged, lossless_config.exchanged,
    lossless_credentials.exchanged, lossless_fetchOptions.exchanged, lossless_settings.exchanged⟩

/-- The last offset there is, and a message with a quote, a backslash, a line break, a control
character and a character beyond the basic plane. -/
theorem exchanged_all_extreme :
    (0 ≤ wordMax ∧ wordMax ≤ wordMax) ∧
      parse? (write (encode (⟨0, wordMax, .error, "\"\\\n\x01😀", .quotes⟩ : Diagnostic))) =
        some (⟨0, wordMax, .error, "\"\\\n\x01😀", .quotes⟩ : Diagnostic) :=
  have hfits : 0 ≤ wordMax ∧ wordMax ≤ wordMax := ⟨Nat.zero_le _, Nat.le_refl _⟩
  ⟨hfits, exchanged_all.2.2.2.2.2.1.parse?_write _ hfits⟩

end Json

end LogQL
