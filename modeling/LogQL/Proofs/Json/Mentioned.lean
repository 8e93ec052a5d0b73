import LogQL.Document

/-!
# What a record gives its fields

Reading a record asks for the values of all its fields at once, and refuses the record if there are
too many items or if a key is given twice. A record that is not refused can be asked field by field
instead (`mentioned?`): an object for the member with that name, an array for the item in that
place. The two ways agree (`eq_mentioned?_of_fields?`).
-/

namespace LogQL

namespace Json

/-- The value that a record gives one of its fields, which are listed in their order: in an object
the value of the member with that name, in an array the item in that place. -/
def mentioned? (fields : List String) (name : String) : Json → Option Json
  | .object ms => (ms.find? (·.1 = some name)).map Prod.snd
  | .array items => items[fields.idxOf name]?
  | _ => none

/-- A list is read back item by item. -/
theorem mapM_map {α β : Type} {write : α → β} {read? : β → Option α}
    (h : ∀ a, read? (write a) = some a) (xs : List α) : (xs.map write).mapM read? = some xs := by
  induction xs with
  | nil => rfl
  | cons x xs ih =>
      rw [List.map_cons, List.mapM_cons, h, ih]
      rfl

/-- A list is read item by item, if an item is read just where it is written. -/
theorem mapM_eq_some_iff {α β : Type} {write : α → β} {read? : β → Option α}
    (h : ∀ b a, read? b = some a ↔ b = write a) {bs : List β} {as : List α} :
    bs.mapM read? = some as ↔ bs = as.map write := by
  constructor
  · intro hread
    induction bs generalizing as with
    | nil =>
        cases hread
        rfl
    | cons b bs ih =>
        rw [List.mapM_cons] at hread
        obtain ⟨a, ha, hread⟩ := Option.bind_eq_some_iff.mp hread
        obtain ⟨as', has, hread⟩ := Option.bind_eq_some_iff.mp hread
        cases hread
        rw [List.map_cons, (h b a).mp ha, ih has]
  · rintro rfl
    exact mapM_map (fun a => (h _ a).mpr rfl) as

/-- The members of an object whose keys all have text. -/
theorem members?_eq_some_iff {raw : List (Option String × Json)} {ms : List (String × Json)} :
    members? (.object raw) = some ms ↔ raw = ms.map fun m => (some m.1, m.2) := by
  refine mapM_eq_some_iff fun m m' => ?_
  obtain ⟨key, v⟩ := m
  obtain ⟨key', v'⟩ := m'
  cases key <;> simp

theorem single?_eq_some {ms : List (String × Json)} {name : String} {value : Option Json}
    (h : Document.single? ms name = some value) :
    value = (ms.find? (·.1 = name)).map Prod.snd := by
  have hfind : ms.find? (·.1 = name) = (ms.filter (·.1 = name)).head? := List.head?_filter.symm
  rw [Document.single?] at h
  rw [hfind, ← List.head?_map]
  split at h
  · rename_i heq
    rw [heq]
    exact (Option.some.inj h).symm
  · rename_i heq
    rw [heq]
    exact (Option.some.inj h).symm
  · cases h

/-- The keys that have text are looked up by their texts. -/
theorem find?_of_members? {raw : List (Option String × Json)} {ms : List (String × Json)}
    (h : members? (.object raw) = some ms) (name : String) :
    (raw.find? (·.1 = some name)).map Prod.snd = (ms.find? (·.1 = name)).map Prod.snd := by
  rw [members?_eq_some_iff.mp h, List.find?_map, Option.map_map]
  simp [Function.comp_def]

theorem eq_map_of_mapM {α β : Type} {read? : α → Option β} {f : α → β}
    (hread : ∀ a b, read? a = some b → b = f a) {as : List α} {bs : List β}
    (h : as.mapM read? = some bs) : bs = as.map f := by
  induction as generalizing bs with
  | nil =>
      cases h
      rfl
  | cons a as ih =>
      rw [List.mapM_cons] at h
      obtain ⟨b, hb, h⟩ := Option.bind_eq_some_iff.mp h
      obtain ⟨bs', hbs', h⟩ := Option.bind_eq_some_iff.mp h
      cases h
      rw [List.map_cons, ← hread a b hb, ← ih hbs']

/-- **The values that a record has for its fields are those that it gives them.** -/
theorem eq_mentioned?_of_fields? {fields : List String} {v : Json} {values : List (Option Json)}
    (hnodup : fields.Nodup) (h : fields? fields v = some values) :
    values = fields.map (v.mentioned? fields ·) := by
  cases v with
  | array items =>
      have hitems : items.length ≤ fields.length ∧
          values = items.map some ++ List.replicate (fields.length - items.length) none := by
        simp only [fields?] at h
        split at h
        · exact ⟨‹_›, (Option.some.inj h).symm⟩
        · cases h
      obtain ⟨hle, rfl⟩ := hitems
      refine List.ext_getElem (by simp; omega) fun i hi hi' => ?_
      rw [List.length_map] at hi'
      have hmentioned : mentioned? fields fields[i] (.array items) = items[i]? := by
        rw [mentioned?, hnodup.idxOf_getElem i hi']
      rw [List.getElem_map, hmentioned]
      by_cases hlt : i < items.length
      · rw [List.getElem_append_left (by simpa using hlt), List.getElem_map,
          List.getElem?_eq_getElem hlt]
      · rw [List.getElem_append_right (by simpa using hlt), List.getElem_replicate,
          List.getElem?_eq_none (Nat.le_of_not_lt hlt)]
  | object raw =>
      obtain ⟨ms, hms, h⟩ := Option.bind_eq_some_iff.mp h
      refine eq_map_of_mapM ?_ h
      intro name value hsingle
      exact (single?_eq_some hsingle).trans (find?_of_members? hms name).symm
  | _ => cases h

/-- A value that may be absent is `null` or read as a value that is there. -/
theorem optional?_eq_some {α : Type} {read? : Json → Option α} {v : Json} {value : Option α}
    (h : Document.optional? read? v = some value) :
    (v = .null ∧ value = none) ∨ ∃ a, read? v = some a ∧ value = some a := by
  rw [Document.optional?] at h
  split at h
  · rename_i hnull
    cases v with
    | null => exact Or.inl ⟨rfl, (Option.some.inj h).symm⟩
    | _ => cases hnull
  · obtain ⟨a, ha, hvalue⟩ := Option.map_eq_some_iff.mp h
    exact Or.inr ⟨a, ha, hvalue.symm⟩

end Json

end LogQL
