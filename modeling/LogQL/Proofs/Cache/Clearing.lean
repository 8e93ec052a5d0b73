import LogQL.Proofs.Cache.Register

/-!
# What a clear of values depends on

A clear of values that names a source looks at one thing beyond the entries: whether the source is
known. The two are nearly the same. A source with an entry is known; but a source that was emptied
one label at a time stays known, and then a clear that names it is confined to it and finds nothing
to forget, where for a source that was never heard of it would forget the values of all sources.

So two caches with the same entries may part ways, and this file says exactly when: the named source
is known in one of them only, and there are values to lose (`clearValues_same_iff`). That this
happens after actual runs is `clearValues_not_same`.
-/

namespace LogQL.Cache

namespace Labels

variable {c d : Labels} {known : Finset String} {a : String}

/-- Two caches hold the same entries, with the same times. -/
def SameEntries (c d : Labels) : Prop := ∀ s q, c.held? s q = d.held? s q

/-- Some values are held, fresh or not. -/
def HoldsValues (c : Labels) : Prop := ∃ s l e, c.held? s (.values l) = some e

/-- No values of this source are held. -/
def Bare (c : Labels) (source : String) : Prop := ∀ l, c.held? source (.values l) = none

/-! ## Known sources -/

theorem Knows.contains_iff (h : c.Knows known) : c.values.contains a = true ↔ a ∈ known := by
  rw [h a, Dict.contains, Option.isSome_iff_exists]

/-- **A source with an entry is known.** -/
theorem contains_of_held? {l : String} {e : Entry (List String)}
    (h : c.held? a (.values l) = some e) : c.values.contains a = true := by
  obtain ⟨shelf, hshelf, -⟩ := Option.bind_eq_some_iff.mp h
  rw [Dict.contains, hshelf]
  rfl

theorem bare_of_not_contains (h : c.values.contains a ≠ true) : c.Bare a := by
  intro l
  rw [Option.eq_none_iff_forall_ne_some]
  intro e he
  exact h (contains_of_held? he)

/-! ## What a clear of values leaves -/

/-- All that the known sources decide is whether the named one is among them. -/
theorem covers_congr {known' : Finset String} {source : Option String}
    (h : ∀ a, source = some a → (a ∈ known ↔ a ∈ known')) (label : Option String) (s : String)
    (q : Question) :
    (Clear.values source label).covers known s q =
      (Clear.values source label).covers known' s q := by
  cases q with
  | names => rfl
  | values l =>
      cases source with
      | none => rfl
      | some a =>
          have ha := h a rfl
          cases label <;> simp only [Clear.covers, ha]

theorem held?_clearValues (h : c.Knows known) (source label : Option String) (s : String)
    (q : Question) :
    (c.clearValues source label).held? s q =
      if (Clear.values source label).covers known s q then none else c.held? s q :=
  held?_forget h (.values source label) s q

/-- **Naming a source that is not known forgets the values of all sources.** -/
theorem not_holdsValues_clearValues (h : c.values.contains a ≠ true) (label : Option String) :
    ¬ (c.clearValues (some a) label).HoldsValues := by
  obtain ⟨known, hknows⟩ := exists_knows c
  have hunknown : Clear.Unknown known (some a) := by
    intro s hs
    obtain rfl := Option.some.inj hs
    exact fun hmem => h (hknows.contains_iff.mpr hmem)
  rintro ⟨s, l, e, he⟩
  rw [held?_clearValues hknows, Clear.covers_unknown hunknown, if_pos rfl] at he
  exact absurd he (by simp)

/-- **Naming a known source without entries forgets nothing.** -/
theorem sameEntries_clearValues (h : c.values.contains a = true) (hbare : c.Bare a)
    (label : Option String) : (c.clearValues (some a) label).SameEntries c := by
  obtain ⟨known, hknows⟩ := exists_knows c
  have hmem : a ∈ known := hknows.contains_iff.mp h
  intro s q
  rw [held?_clearValues hknows]
  split
  · rename_i hcovers
    cases q with
    | names => exact absurd hcovers (by simp [Clear.covers])
    | values l =>
        -- only values of the source itself are covered, and it has none
        have hs : a = s := by
          cases label with
          | none => simpa [Clear.covers, hmem] using hcovers
          | some l' =>
              have hboth : a = s ∧ l' = l := by simpa [Clear.covers, hmem] using hcovers
              exact hboth.1
        rw [← hs, hbare l]
  · rfl

theorem SameEntries.symm (h : c.SameEntries d) : d.SameEntries c := fun s q => (h s q).symm

theorem SameEntries.trans {b : Labels} (h : c.SameEntries d) (h' : d.SameEntries b) :
    c.SameEntries b := fun s q => (h s q).trans (h' s q)

theorem SameEntries.holdsValues (h : c.SameEntries d) (hc : c.HoldsValues) : d.HoldsValues := by
  obtain ⟨s, l, e, he⟩ := hc
  exact ⟨s, l, e, (h s _).symm.trans he⟩

theorem SameEntries.bare (h : c.SameEntries d) (hc : c.Bare a) : d.Bare a :=
  fun l => (h a _).symm.trans (hc l)

/-! ## Two caches with the same entries -/

/-- A clear leaves the same of both if both know the source that it names, or neither does. -/
theorem SameEntries.clearValues (h : c.SameEntries d) {source : Option String}
    (hknown : ∀ a, source = some a → c.values.contains a = d.values.contains a)
    (label : Option String) :
    (c.clearValues source label).SameEntries (d.clearValues source label) := by
  obtain ⟨known, hc⟩ := exists_knows c
  obtain ⟨known', hd⟩ := exists_knows d
  have hcongr : ∀ a, source = some a → (a ∈ known ↔ a ∈ known') := by
    intro a ha
    rw [← hc.contains_iff, ← hd.contains_iff, hknown a ha]
  intro s q
  rw [held?_clearValues hc, held?_clearValues hd, covers_congr hcongr, h s q]

/-- Where there are no values, a clear of values leaves everything. -/
theorem sameEntries_of_not_holdsValues (h : ¬ c.HoldsValues) (source label : Option String) :
    (c.clearValues source label).SameEntries c := by
  obtain ⟨known, hknows⟩ := exists_knows c
  intro s q
  cases q with
  | names => rw [held?_clearValues hknows]; rfl
  | values l =>
      have hnone : c.held? s (.values l) = none := by
        rw [Option.eq_none_iff_forall_ne_some]
        exact fun e he => h ⟨s, l, e, he⟩
      rw [held?_clearValues hknows, hnone, ite_self]

/-- A source that only the first of two caches knows keeps a clear of values from the first, but
not from the second. -/
theorem not_sameEntries_clearValues (h : c.SameEntries d) (hc : c.values.contains a = true)
    (hd : d.values.contains a ≠ true) (hvalues : c.HoldsValues) (label : Option String) :
    ¬ (c.clearValues (some a) label).SameEntries (d.clearValues (some a) label) := by
  intro hsame
  have hbare : c.Bare a := h.symm.bare (bare_of_not_contains hd)
  have hkept : c.SameEntries (d.clearValues (some a) label) :=
    (sameEntries_clearValues hc hbare label).symm.trans hsame
  exact not_holdsValues_clearValues hd label (hkept.holdsValues hvalues)

/--
**When a clear of values leaves the same of two caches with the same entries.** It does unless it
names a source that only one of the two knows, and there are values to lose. Such a source has no
entry in either; the cache that knows it keeps all it has, and the other one loses all values.
-/
theorem clearValues_same_iff (h : c.SameEntries d) (source label : Option String) :
    ((c.clearValues source label).SameEntries (d.clearValues source label) ↔
      ∀ a, source = some a →
        c.values.contains a = d.values.contains a ∨ ¬ c.HoldsValues) ∧
    ∀ a, source = some a →
      (∀ l e, c.held? a (.values l) = some e →
        c.values.contains a = true ∧ d.values.contains a = true) ∧
      (c.values.contains a ≠ true → ¬ (c.clearValues source label).HoldsValues) ∧
      (c.values.contains a = true → c.Bare a → (c.clearValues source label).SameEntries c) := by
  constructor
  · constructor
    · rintro hsame a rfl
      by_contra hnot
      obtain ⟨hne, hvalues⟩ := not_or.mp hnot
      rw [not_not] at hvalues
      by_cases hc : c.values.contains a = true
      · have hd : d.values.contains a ≠ true := fun hd => hne (hc.trans hd.symm)
        exact not_sameEntries_clearValues h hc hd hvalues label hsame
      · have hd : d.values.contains a = true := by
          by_contra hd
          exact hne (by rw [Bool.not_eq_true] at hc hd; rw [hc, hd])
        exact not_sameEntries_clearValues h.symm hd hc (h.holdsValues hvalues) label hsame.symm
    · intro hknown
      by_cases hvalues : c.HoldsValues
      · refine h.clearValues (fun a ha => ?_) label
        exact (hknown a ha).resolve_right (not_not_intro hvalues)
      · have hd : ¬ d.HoldsValues := fun hd => hvalues (h.symm.holdsValues hd)
        exact ((sameEntries_of_not_holdsValues hvalues source label).trans h).trans
          (sameEntries_of_not_holdsValues hd source label).symm
  · rintro a rfl
    refine ⟨fun l e he => ?_, fun hc => not_holdsValues_clearValues hc label,
      fun hc hbare => sameEntries_clearValues hc hbare label⟩
    exact ⟨contains_of_held? he, contains_of_held? ((h a _).symm.trans he)⟩

end Labels

/-! ## Two runs that end with the same entries -/

/-- A cache and its clock after some actions, from a cache without data. -/
def Clocked.run (lifetime : Lifetime) (start : Millis) (actions : List Action) : Clocked :=
  actions.foldl (fun s a => (s.perform a).2) ⟨.empty lifetime, start⟩

/-- Only one source was ever heard of. -/
def plainRun : List Action := [.store "b" (.values "job") ["worker"]]

/-- Another source was heard of, and lost its last entry when its one label was cleared. -/
def emptiedRun : List Action :=
  [.store "a" (.values "job") ["api"], .store "b" (.values "job") ["worker"],
    .forget (.values (some "a") (some "job"))]

theorem plain_sameEntries_emptied :
    (Clocked.run .default 0 plainRun).cache.SameEntries
      (Clocked.run .default 0 emptiedRun).cache := by
  have hknows := ((Labels.knows_empty .default).store 0 "a" (.values "job") ["api"]).store 0 "b"
    (.values "job") ["worker"]
  intro s q
  refine Eq.trans ?_ (Labels.held?_forget hknows (.values (some "a") (some "job")) s q).symm
  show ((Labels.empty .default).store 0 "b" (.values "job") ["worker"]).held? s q = _
  simp only [Labels.held?_store, Labels.held?_empty]
  cases q with
  | names => simp [Clear.covers]
  | values l =>
      -- the entry that is covered is the one that the plain run never made
      by_cases ha : "a" = s ∧ "job" = l
      · obtain ⟨rfl, rfl⟩ := ha
        simp [Clear.covers]
      · simp [Clear.covers, Question.learn, ha]

/-- **The entries alone do not say what a clear of values leaves.** Two runs end at the same time
with the same entries, none of them of the source `a`. Clearing all values of `a` then forgets the
values of `b` after one of the runs, and keeps them after the other. -/
theorem clearValues_not_same :
    ∃ (lifetime : Lifetime) (start : Millis) (actions actions' : List Action) (a : String),
      let s := Clocked.run lifetime start actions
      let s' := Clocked.run lifetime start actions'
      s.now = s'.now ∧ s.cache.SameEntries s'.cache ∧ s'.cache.Bare a ∧
        ¬ (s.cache.clearValues (some a) none).SameEntries (s'.cache.clearValues (some a) none) ∧
        (s'.cache.clearValues (some a) none).HoldsValues := by
  refine ⟨.default, 0, plainRun, emptiedRun, "a", rfl, plain_sameEntries_emptied, ?_, ?_, ?_⟩
  · intro l
    rw [← plain_sameEntries_emptied]
    rfl
  · intro hsame
    have hb := hsame "b" (.values "job")
    revert hb
    decide
  · exact ⟨"b", "job", ⟨["worker"], 0⟩, by decide⟩

/-- Both runs know the source `b`, so clearing its values leaves the same of both. -/
theorem clearValues_same_of_known :
    (Clocked.run .default 0 plainRun).cache.SameEntries
        (Clocked.run .default 0 emptiedRun).cache ∧
      ((Clocked.run .default 0 plainRun).cache.clearValues (some "b") none).SameEntries
        ((Clocked.run .default 0 emptiedRun).cache.clearValues (some "b") none) := by
  refine ⟨plain_sameEntries_emptied, ?_⟩
  refine (Labels.clearValues_same_iff plain_sameEntries_emptied (some "b") none).1.mpr ?_
  intro a ha
  obtain rfl := Option.some.inj ha
  exact Or.inl (by decide)

end LogQL.Cache
