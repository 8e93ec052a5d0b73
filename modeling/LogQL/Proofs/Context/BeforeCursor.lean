import LogQL.Proofs.Context.Checked

/-!
# Only the text before the cursor counts

Without a tree a request is answered from what `upTo text cursor` gives. The brace and the line are
looked for in it, and the word under way is counted back from its end, so each part of the answer is
the same for any two texts that begin alike (`lineBefore_congr`, `onWord?_congr`, `ofText?_congr`).
The place of the cursor is no exception: it is the length of that beginning, and two cursors that
come after the same beginning, be they inside a character or past the end, are moved back to one
place.

The one thing that depends on the rest is whether there is any text. A beginning without characters
may be all of the text, which then has no context, or may have text behind it.
-/

namespace LogQL.Context

open Text

variable {text text' : List Char} {cursor cursor' : Nat}

/-! ## The parts of the answer -/

theorem lineBefore_congr (h : upTo text cursor = upTo text' cursor') :
    lineBefore text cursor = lineBefore text' cursor' :=
  congrArg (trailing (· != '\n')) h

theorem wordStart_congr (h : upTo text cursor = upTo text' cursor') :
    wordStart text cursor = wordStart text' cursor' :=
  congrArg (fun before => byteLength (dropTrailing isWord before)) h

theorem onWord?_congr (h : upTo text cursor = upTo text' cursor) (isExplicit : Bool) :
    onWord? text cursor isExplicit = onWord? text' cursor isExplicit := by
  rw [onWord?, onWord?, wordStart_congr h]

/-- **Texts that begin alike show the same context** where the beginning ends. -/
theorem ofText?_congr (h : upTo text cursor = upTo text' cursor) (isExplicit : Bool) :
    ofText? text cursor isExplicit = ofText? text' cursor isExplicit := by
  rw [ofText?, ofText?, h, lineBefore_congr h, onWord?_congr h]

/-! ## Requests -/

/-- A request without a tree, on a text that is there, is answered from the text. -/
theorem context?_of_ne_nil (hne : text ≠ []) (cursor : Nat) (isExplicit : Bool) :
    Request.context? ⟨text, cursor, none, isExplicit⟩ =
      ofText? text (clamp text cursor) isExplicit :=
  if_neg (by simpa using hne)

/--
**Nothing behind the cursor changes the answer.** Two requests without a tree have the same context
if the texts are the same up to their cursors, each moved back to a boundary, and neither text is
empty. The classification that goes step by step over all bytes of the texts then comes to the same
end as well. So of a text with a cursor the part behind the cursor may be replaced by any other.
-/
theorem context?_of_same_before {text text' : List Char} (hne : text ≠ []) (hne' : text' ≠ [])
    (cursor cursor' : Nat) (isExplicit : Bool)
    (h : slice? text 0 (clamp text cursor) = slice? text' 0 (clamp text' cursor')) :
    Request.context? ⟨text, cursor, none, isExplicit⟩ =
        Request.context? ⟨text', cursor', none, isExplicit⟩ ∧
      Checked.context ⟨text, cursor, none, isExplicit⟩ =
        Checked.context ⟨text', cursor', none, isExplicit⟩ ∧
      ∀ post, upTo text cursor ++ post ≠ [] →
        Request.context? ⟨upTo text cursor ++ post, clamp text cursor, none, isExplicit⟩ =
          Request.context? ⟨text, cursor, none, isExplicit⟩ := by
  -- two texts with the same beginning, each with a cursor that is moved back to its end
  have hsame : ∀ {text text' : List Char} {cursor cursor' : Nat}, text ≠ [] → text' ≠ [] →
      upTo text cursor = upTo text' cursor' →
        Request.context? ⟨text, cursor, none, isExplicit⟩ =
          Request.context? ⟨text', cursor', none, isExplicit⟩ := by
    intro text text' cursor cursor' hne hne' hbefore
    have hplace : clamp text cursor = clamp text' cursor' := congrArg byteLength hbefore
    rw [context?_of_ne_nil hne, context?_of_ne_nil hne', hplace]
    refine ofText?_congr ?_ isExplicit
    rw [← hplace, upTo_clamp, hbefore, hplace, upTo_clamp]
  have hbefore : upTo text cursor = upTo text' cursor' := by
    rw [slice?_clamp, slice?_clamp] at h
    exact Option.some.inj h
  have hnone : ∀ t, (none : Option Tree) = some t → t.Acyclic := fun _ ht => absurd ht (by simp)
  have hcontext := hsame hne hne' hbefore
  refine ⟨hcontext, ?_, fun post hpost => hsame hpost hne (upTo_byteLength _ _)⟩
  rw [Checked.context_eq hnone, Checked.context_eq hnone, hcontext]

-- with nothing before the cursor it matters whether there is a text at all
example : Request.context? ⟨[], 0, none, true⟩ = none ∧
    Request.context? ⟨['a'], 0, none, true⟩ = some ⟨.anyWord, 0, .word⟩ := by decide

/-- One cursor stands inside a letter of two bytes and the other past the end, both behind an equals
sign. -/
theorem context?_of_same_before_value :
    "\x7bjob=é\x7d |= 1".toList ≠ [] ∧ "\x7bjob=".toList ≠ [] ∧
      slice? "\x7bjob=é\x7d |= 1".toList 0 (clamp "\x7bjob=é\x7d |= 1".toList 6) =
        slice? "\x7bjob=".toList 0 (clamp "\x7bjob=".toList 40) ∧
      Request.context? ⟨"\x7bjob=é\x7d |= 1".toList, 6, none, false⟩ =
        some ⟨.labelValue "job" .double, 5, .textLabelValue⟩ := by
  have hne : "\x7bjob=é\x7d |= 1".toList ≠ [] := by decide
  have hne' : "\x7bjob=".toList ≠ [] := by decide
  have hbefore : slice? "\x7bjob=é\x7d |= 1".toList 0 (clamp "\x7bjob=é\x7d |= 1".toList 6) =
      slice? "\x7bjob=".toList 0 (clamp "\x7bjob=".toList 40) := by decide
  have hshort : Request.context? ⟨"\x7bjob=".toList, 40, none, false⟩ =
      some ⟨.labelValue "job" .double, 5, .textLabelValue⟩ := by decide
  exact ⟨hne, hne', hbefore, (context?_of_same_before hne hne' 6 40 false hbefore).1.trans hshort⟩

end LogQL.Context
