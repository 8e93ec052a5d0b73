import LogQL.Cache.Labels
import Mathlib.Data.Finset.Insert
import Mathlib.Data.Finset.Erase

/-!
# What each operation does to a label cache

A label cache has two levels, but two views are all there is to see of it: the entry that it holds
for a source and a question (`Labels.held?`), and the sources that it knows (`Labels.Knows`). This
file says for each operation what becomes of the two.

The second one matters only because a clear of values looks at it. Which entries a clear covers,
and which sources are known after it, is told by `Clear.covers` and `Clear.unlearn` from the known
sources alone; in particular, a known source may be one that has no entry.

What a read finds depends on the lifetime of the shelf that it looks at. All shelves of a cache have
the same one (`Labels.Lasts`), so the entry alone decides (`Labels.Lasts.data?_read`).
-/

namespace LogQL.Cache

/-! ## Clears -/

/-- Something to forget. -/
inductive Clear where
  /-- Everything. -/
  | all
  /-- The label names of one source, or of all of them. -/
  | names (source : Option String)
  /-- Label values, of one source or of all of them, and of one label or of all of them. -/
  | values (source label : Option String)
  deriving DecidableEq, Repr, Inhabited

namespace Clear

/-- Whether the entry for a question to a source is forgotten where these sources are known. -/
def covers (known : Finset String) (c : Clear) (source : String) (q : Question) : Bool :=
  match c, q with
  | .all, _ => true
  | .names s, .names => s.all (· == source)
  | .names _, .values _ => false
  | .values _ _, .names => false
  | .values none _, .values _ => true
  | .values (some s) none, .values _ => s ∉ known || s == source
  | .values (some s) (some l), .values label => s ∉ known || (s == source && l == label)

/-- The sources that are known afterwards. -/
def unlearn (known : Finset String) : Clear → Finset String
  | .all => ∅
  | .names _ => known
  | .values none _ => ∅
  | .values (some s) none => if s ∈ known then known.erase s else ∅
  | .values (some s) (some _) => if s ∈ known then known else ∅

variable {known : Finset String} {source : Option String}

/-- No source is named that is known. -/
def Unknown (known : Finset String) (source : Option String) : Prop :=
  ∀ s, source = some s → s ∉ known

theorem covers_unknown (h : Unknown known source) (label : Option String) (s l : String) :
    (Clear.values source label).covers known s (.values l) = true := by
  cases source with
  | none => rfl
  | some source => cases label <;> simp [covers, h source rfl]

theorem unlearn_unknown (h : Unknown known source) (label : Option String) :
    (Clear.values source label).unlearn known = ∅ := by
  cases source with
  | none => rfl
  | some source => cases label <;> simp [unlearn, h source rfl]

end Clear

/-- The sources that are known after an answer to a question was stored. -/
def Question.learn (known : Finset String) (source : String) : Question → Finset String
  | .names => known
  | .values _ => insert source known

namespace Labels

variable {c : Labels} {known : Finset String} {lifetime : Lifetime}

/-- Forget something. -/
def forget (c : Labels) : Clear → Labels
  | .all => c.clear
  | .names source => c.clearNames source
  | .values source label => c.clearValues source label

/-- These are the sources that have a shelf for values. -/
def Knows (c : Labels) (known : Finset String) : Prop :=
  ∀ s, s ∈ known ↔ ∃ shelf, c.values.get? s = some shelf

/-! ## Entries and known sources -/

@[simp] theorem held?_empty (lifetime : Lifetime) (source : String) (q : Question) :
    (empty lifetime).held? source q = none := by
  cases q <;> rfl

theorem knows_empty (lifetime : Lifetime) : (empty lifetime).Knows ∅ := by
  intro s
  simp [empty]

/-- Every cache knows some sources. -/
theorem exists_knows (c : Labels) : ∃ known, c.Knows known := by
  refine ⟨c.values.keys.toFinset, fun s => ?_⟩
  rw [List.mem_toFinset, Dict.mem_keys_iff]

@[simp] theorem held?_read (c : Labels) (now : Millis) (source : String) (q : Question) (s : String)
    (p : Question) : (c.read now source q).2.held? s p = c.held? s p := by
  cases p <;> rfl

theorem Knows.read (h : c.Knows known) (now : Millis) (source : String) (q : Question) :
    (c.read now source q).2.Knows known := h

/-- **A store gives its own key an entry, and no other.** -/
theorem held?_store (c : Labels) (now : Millis) (source : String) (q : Question)
    (data : List String) (s : String) (p : Question) :
    (c.store now source q data).held? s p =
      if source = s ∧ q = p then some ⟨data, now⟩ else c.held? s p := by
  cases q with
  | names =>
      cases p with
      | names => simp [store, held?, Shelf.held?_store]
      | values label => simp [store, held?]
  | values l =>
      cases p with
      | names => simp [store, held?]
      | values label =>
          simp only [store, held?, Dict.get?_insert, Question.values.injEq]
          by_cases hs : source = s
          · subst hs
            -- a shelf that is only made now holds nothing but the new entry
            cases hshelf : c.values.get? source <;> simp [Shelf.held?_store]
          · simp [hs]

theorem Knows.store (h : c.Knows known) (now : Millis) (source : String) (q : Question)
    (data : List String) : (c.store now source q data).Knows (q.learn known source) := by
  intro s
  cases q with
  | names => exact h s
  | values l =>
      simp only [Question.learn, Finset.mem_insert, Labels.store, Dict.get?_insert]
      by_cases hs : source = s
      · simp [hs]
      · simp [hs, Ne.symm hs, h s]

/-! ## Clears -/

/-- A clear of values forgets all of them, or those of a known source, or those of one label of a
known source, whose shelf stays even when it is empty then. -/
theorem clearValues_cases (h : c.Knows known) (source label : Option String) :
    (Clear.Unknown known source ∧ c.clearValues source label = { c with values := .empty }) ∨
    (∃ s, s ∈ known ∧ source = some s ∧ label = none ∧
      c.clearValues source label = { c with values := c.values.erase s }) ∨
    (∃ s l shelf, s ∈ known ∧ source = some s ∧ label = some l ∧ c.values.get? s = some shelf ∧
      c.clearValues source label = { c with values := c.values.insert s (shelf.delete l) }) := by
  cases source with
  | none => exact Or.inl ⟨fun s hs => absurd hs (by simp), rfl⟩
  | some s =>
      unfold clearValues
      cases hshelf : c.values.get? s with
      | none =>
          have hs : s ∉ known := fun hs => by simpa [hshelf] using (h s).mp hs
          refine Or.inl ⟨fun s' he => ?_, by simp [hshelf]⟩
          rwa [← Option.some.inj he]
      | some shelf =>
          have hs : s ∈ known := (h s).mpr ⟨shelf, hshelf⟩
          cases label with
          | none => exact Or.inr (Or.inl ⟨s, hs, rfl, rfl, by simp [hshelf]⟩)
          | some l => exact Or.inr (Or.inr ⟨s, l, shelf, hs, rfl, rfl, hshelf, by simp [hshelf]⟩)

/-- **A clear takes away the entries that it covers, and no other.** -/
theorem held?_forget (h : c.Knows known) (k : Clear) (s : String) (p : Question) :
    (c.forget k).held? s p = if k.covers known s p then none else c.held? s p := by
  cases k with
  | all => cases p <;> simp [forget, clear, held?, Clear.covers]
  | names source =>
      cases source with
      | none => cases p <;> simp [forget, clearNames, held?, Clear.covers]
      | some source =>
          cases p <;> simp [forget, clearNames, held?, Clear.covers, Shelf.held?_delete]
  | values source label =>
      simp only [forget]
      rcases clearValues_cases h source label with ⟨hs, he⟩ | ⟨source, hs, rfl, rfl, he⟩ |
        ⟨source, label, shelf, hs, rfl, rfl, hshelf, he⟩
      · cases p with
        | names => simp [he, held?, Clear.covers]
        | values l => simp [he, held?, Clear.covers_unknown hs]
      · cases p with
        | names => simp [he, held?, Clear.covers]
        | values l =>
            rw [he]
            by_cases heq : source = s <;> simp [held?, Clear.covers, Dict.get?_erase, hs, heq]
      · cases p with
        | names => simp [he, held?, Clear.covers]
        | values l =>
            by_cases heq : source = s
            · subst heq
              simp [he, held?, Clear.covers, Dict.get?_insert, Shelf.held?_delete, hs, hshelf]
            · simp [he, held?, Clear.covers, Dict.get?_insert, hs, heq]

theorem Knows.forget (h : c.Knows known) (k : Clear) :
    (c.forget k).Knows (k.unlearn known) := by
  intro s
  cases k with
  | all => simp [Labels.forget, clear, Clear.unlearn]
  | names source => cases source <;> exact h s
  | values source label =>
      simp only [Labels.forget]
      rcases clearValues_cases h source label with ⟨hs, he⟩ | ⟨source, hs, rfl, rfl, he⟩ |
        ⟨source, label, shelf, hs, rfl, rfl, -, he⟩
      · simp [he, Clear.unlearn_unknown hs]
      · rw [he]
        by_cases heq : source = s
        · subst heq
          simp [Clear.unlearn, Dict.get?_erase, hs]
        · simp [Clear.unlearn, Dict.get?_erase, hs, heq, Ne.symm heq, h s]
      · -- the source stays known, for its shelf stays
        by_cases heq : source = s
        · subst heq
          simp [he, Clear.unlearn, Dict.get?_insert, hs]
        · simp [he, Clear.unlearn, Dict.get?_insert, hs, heq, h s]

/-! ## Lifetimes -/

/-- All shelves have this lifetime. -/
structure Lasts (lifetime : Lifetime) (c : Labels) : Prop where
  cache : c.lifetime = lifetime
  names : c.names.lifetime = lifetime
  values : ∀ s shelf, c.values.get? s = some shelf → shelf.lifetime = lifetime

theorem lasts_empty (lifetime : Lifetime) : Lasts lifetime (empty lifetime) :=
  ⟨rfl, rfl, fun s shelf h => absurd h (by simp [empty])⟩

theorem Lasts.read (h : c.Lasts lifetime) (now : Millis) (source : String) (q : Question) :
    (c.read now source q).2.Lasts lifetime := ⟨h.cache, h.names, h.values⟩

theorem Lasts.store (h : c.Lasts lifetime) (now : Millis) (source : String) (q : Question)
    (data : List String) : (c.store now source q data).Lasts lifetime := by
  cases q with
  | names => exact ⟨h.cache, h.names, h.values⟩
  | values l =>
      refine ⟨h.cache, h.names, fun s shelf hs => ?_⟩
      simp only [Labels.store, Dict.get?_insert] at hs
      split at hs
      · -- the shelf was there before, or it was made for this entry
        obtain rfl := Option.some.inj hs
        cases hshelf : c.values.get? source with
        | none => exact h.cache
        | some shelf => exact h.values source shelf hshelf
      · exact h.values s shelf hs

theorem Lasts.forget (h : c.Lasts lifetime) (hk : c.Knows known) (k : Clear) :
    (c.forget k).Lasts lifetime := by
  cases k with
  | all => exact ⟨h.cache, h.names, fun s shelf hs => absurd hs (by simp [Labels.forget, clear])⟩
  | names source => cases source <;> exact ⟨h.cache, h.names, h.values⟩
  | values source label =>
      simp only [Labels.forget]
      rcases clearValues_cases hk source label with ⟨-, he⟩ | ⟨source, -, -, -, he⟩ |
        ⟨source, label, shelf, -, -, -, hshelf, he⟩
      · rw [he]
        exact ⟨h.cache, h.names, fun s shelf hs => absurd hs (by simp)⟩
      · rw [he]
        refine ⟨h.cache, h.names, fun s shelf hs => ?_⟩
        simp only [Dict.get?_erase] at hs
        split at hs
        · exact absurd hs (by simp)
        · exact h.values s shelf hs
      · rw [he]
        refine ⟨h.cache, h.names, fun s shelf' hs => ?_⟩
        simp only [Dict.get?_insert] at hs
        split at hs
        · obtain rfl := Option.some.inj hs
          exact h.values source shelf hshelf
        · exact h.values s shelf' hs

/-- **A read finds the data of its own entry, if that is fresh.** -/
theorem Lasts.data?_read (h : c.Lasts lifetime) (now : Millis) (source : String) (q : Question) :
    (c.read now source q).1 =
      ((c.held? source q).filter fun e => lifetime.covers e.storedAt now).map Entry.data := by
  cases q with
  | names =>
      simp only [Labels.read, find, Shelf.find, held?, h.names]
      cases c.names.held? source with
      | none => rfl
      | some e => cases hc : lifetime.covers e.storedAt now <;> simp [Finding.data?, hc]
  | values label =>
      simp only [Labels.read, find, held?]
      cases hshelf : c.values.get? source with
      | none => rfl
      | some shelf =>
          simp only [Shelf.find, h.values source shelf hshelf, Option.bind_some]
          cases shelf.held? label with
          | none => rfl
          | some e => cases hc : lifetime.covers e.storedAt now <;> simp [Finding.data?, hc]

/-- In other words, it finds the data of its own entry while that is younger than the lifetime. -/
theorem Lasts.read_eq_some_iff (h : c.Lasts lifetime) {now : Millis} {source : String}
    {q : Question} {values : List String} :
    (c.read now source q).1 = some values ↔
      ∃ e, c.held? source q = some e ∧ now.toNat - e.storedAt.toNat < lifetime.millis.toNat ∧
        e.data = values := by
  rw [h.data?_read, Option.map_eq_some_iff]
  constructor
  · rintro ⟨e, he, hdata⟩
    obtain ⟨hheld, hcovers⟩ := Option.filter_eq_some_iff.mp he
    exact ⟨e, hheld, of_decide_eq_true hcovers, hdata⟩
  · rintro ⟨e, hheld, hage, hdata⟩
    exact ⟨e, Option.filter_eq_some_iff.mpr ⟨hheld, decide_eq_true hage⟩, hdata⟩

end Labels

end LogQL.Cache
