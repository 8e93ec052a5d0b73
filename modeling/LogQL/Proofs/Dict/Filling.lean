import LogQL.Dict
import Mathlib.Data.List.Induction
import Mathlib.Data.List.Sort

/-!
# What a dictionary is filled with

A dictionary that is filled entry by entry gives each key what the last entry with the key says
(`LastEntry`). One more entry is the last one with its key and leaves those with other keys as they
are, which is what putting it in does to a look-up, so the induction is along the list from its end.

Nothing else of the list is left. The entries of a dictionary are in order, so it is told by its
look-ups (`ext_get?`), and two lists fill the same dictionary just when their last entries are the
same (`ofList_eq_iff`).
-/

namespace LogQL.Dict

variable {α : Type} {d d' : Dict α} {es es' : List (String × α)} {e : String × α} {key : String}
  {value : α}

/-! ## Dictionaries by their look-ups -/

theorem keys_pairwise (d : Dict α) : d.keys.Pairwise (· < ·) := List.pairwise_map.mpr d.sorted

/-- Keys in order are told by which ones they are. -/
theorem keys_ext (h : ∀ key, key ∈ d.keys ↔ key ∈ d'.keys) : d.keys = d'.keys :=
  d.keys_pairwise.eq_of_mem_iff d'.keys_pairwise h

/-- **A dictionary is told by its look-ups.** -/
theorem ext_get? (h : ∀ key, d.get? key = d'.get? key) : d = d' := by
  have hirrefl : Std.Irrefl fun x y : String × α => x.1 < y.1 := ⟨fun x => String.lt_irrefl x.1⟩
  have hantisymm : Std.Antisymm fun x y : String × α => x.1 < y.1 :=
    ⟨fun x y hxy hyx => absurd hyx (String.lt_asymm hxy)⟩
  refine ext (d.sorted.eq_of_mem_iff d'.sorted fun x => ?_)
  rw [mem_entries_iff, mem_entries_iff, h]

/-! ## The last entry with a key -/

/-- The last entry of a list with a key has this value. -/
def LastEntry (es : List (String × α)) (key : String) (value : α) : Prop :=
  ∃ pre post, es = pre ++ (key, value) :: post ∧ ∀ e ∈ post, e.1 ≠ key

/-- An entry stands at the end, or the end comes after it. -/
theorem split_concat {x : String × α} {pre post : List (String × α)}
    (h : es ++ [e] = pre ++ x :: post) :
    post = [] ∧ es = pre ∧ e = x ∨ ∃ post', post = post' ++ [e] ∧ es = pre ++ x :: post' := by
  rcases List.eq_nil_or_concat post with rfl | ⟨post', last, rfl⟩
  · obtain ⟨rfl, hlast⟩ := List.append_inj' h rfl
    exact Or.inl ⟨rfl, rfl, List.singleton_inj.mp hlast⟩
  · rw [List.concat_eq_append, ← List.cons_append, ← List.append_assoc] at h
    obtain ⟨rfl, hlast⟩ := List.append_inj' h rfl
    exact Or.inr ⟨post', by rw [List.concat_eq_append, hlast], rfl⟩

theorem lastEntry_concat_self (h : e.1 = key) : LastEntry (es ++ [e]) key value ↔ e.2 = value := by
  refine ⟨fun hlast => ?_, fun hvalue => ⟨es, [], ?_, by simp⟩⟩
  · obtain ⟨pre, post, hsplit, hpost⟩ := hlast
    rcases split_concat hsplit with ⟨-, -, rfl⟩ | ⟨post', rfl, -⟩
    · rfl
    · exact absurd h (hpost e (by simp))
  · rw [← h, ← hvalue]

theorem lastEntry_concat_of_ne (h : e.1 ≠ key) :
    LastEntry (es ++ [e]) key value ↔ LastEntry es key value := by
  refine ⟨fun hlast => ?_, fun hlast => ?_⟩
  · obtain ⟨pre, post, hsplit, hpost⟩ := hlast
    rcases split_concat hsplit with ⟨-, -, rfl⟩ | ⟨post', rfl, rfl⟩
    · exact absurd rfl h
    · exact ⟨pre, post', rfl, fun x hx => hpost x (List.mem_append_left _ hx)⟩
  · obtain ⟨pre, post, rfl, hpost⟩ := hlast
    refine ⟨pre, post ++ [e], by simp, fun x hx => ?_⟩
    rcases List.mem_append.mp hx with hx | hx
    · exact hpost x hx
    · rwa [List.mem_singleton.mp hx]

/-- A key that occurs has a last entry. -/
theorem exists_lastEntry_iff : (∃ value, LastEntry es key value) ↔ key ∈ es.map Prod.fst := by
  induction es using List.reverseRecOn with
  | nil => simp [LastEntry]
  | append_singleton es e ih =>
      rw [List.map_append, List.mem_append, ← ih, List.map_singleton, List.mem_singleton]
      by_cases h : e.1 = key
      · exact ⟨fun _ => Or.inr h.symm, fun _ => ⟨e.2, (lastEntry_concat_self h).mpr rfl⟩⟩
      · simp only [lastEntry_concat_of_ne h, Ne.symm h, or_false]

/-! ## Filling -/

theorem ofList_concat (es : List (String × α)) (e : String × α) :
    ofList (es ++ [e]) = (ofList es).insert e.1 e.2 := List.foldl_concat ..

/-- **The last entry with a key counts.** -/
theorem get?_ofList_eq_some_iff : (ofList es).get? key = some value ↔ LastEntry es key value := by
  induction es using List.reverseRecOn with
  | nil =>
      have hnone : (ofList ([] : List (String × α))).get? key = none := rfl
      simp [hnone, LastEntry]
  | append_singleton es e ih =>
      rw [ofList_concat, get?_insert]
      by_cases h : e.1 = key
      · rw [if_pos h, lastEntry_concat_self h, Option.some.injEq]
      · rw [if_neg h, lastEntry_concat_of_ne h, ih]

theorem get?_ofList_eq_none (h : key ∉ es.map Prod.fst) : (ofList es).get? key = none := by
  refine Option.eq_none_iff_forall_ne_some.mpr fun value hvalue => ?_
  exact h (exists_lastEntry_iff.mp ⟨value, get?_ofList_eq_some_iff.mp hvalue⟩)

theorem mem_keys_ofList : key ∈ (ofList es).keys ↔ key ∈ es.map Prod.fst := by
  rw [mem_keys_iff, ← exists_lastEntry_iff]
  simp only [get?_ofList_eq_some_iff]

/-- **Lists with the same last entries fill the same dictionary.** -/
theorem ofList_eq_iff :
    ofList es = ofList es' ↔ ∀ key value, LastEntry es key value ↔ LastEntry es' key value := by
  simp only [← get?_ofList_eq_some_iff]
  refine ⟨fun h key value => by rw [h], fun h => ext_get? fun key => Option.ext fun value => ?_⟩
  exact h key value

/-- **The entries of a dictionary fill that dictionary**, since no key comes twice among them. -/
theorem ofList_entries (d : Dict α) : ofList d.entries = d := by
  refine ext_get? fun key => Option.ext fun value => ?_
  rw [get?_ofList_eq_some_iff, ← mem_entries_iff]
  refine ⟨fun hlast => ?_, fun hmem => ?_⟩
  · obtain ⟨pre, post, hsplit, -⟩ := hlast
    simp [hsplit]
  · obtain ⟨pre, post, hsplit⟩ := List.append_of_mem hmem
    have hsorted := d.sorted
    rw [hsplit, List.pairwise_append, List.pairwise_cons] at hsorted
    refine ⟨pre, post, hsplit, fun e he heq => ?_⟩
    have hlt : key < e.1 := hsorted.2.1.1 e he
    exact String.lt_irrefl key (heq ▸ hlt)

end LogQL.Dict
