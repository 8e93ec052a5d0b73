import LogQL.Proofs.Labels.History
import Mathlib.Data.Set.Card

/-!
# A shelf under a clock

A shelf is used while a clock runs that may be set to any time and that wraps around when it is
advanced too far. What becomes of a key is told by two things that can be read off the actions: the
last `set` of the key, unless a `delete` of the key or a `clear` came later (`LastSet`), and the
time that the clock shows (`clockAfter`). No reply depends on anything else.

The invariant is `Holds`: the shelf holds the last set of each key, and its clock shows the time.
Every action keeps it, so it holds after any actions. What has gone stale may well become fresh
again when the clock is set back, but not while it only goes on: without a new `set` an age can
only shrink when the clock does (`fresh_before`).
-/

namespace LogQL.Cache.Shelf

open LogQL.Labels (Standing standing_snoc not_standing_nil)

variable {α : Type}

/-! ## Actions -/

/-- Something to do with a shelf, or with the clock that it reads. -/
inductive Action (α : Type) where
  | set (key : String) (data : α)
  /-- Ask for the data of a key, if it is fresh. -/
  | get (key : String)
  /-- Ask for what a look-up finds. -/
  | find (key : String)
  /-- Ask whether the data of a key is fresh by another lifetime. -/
  | hasFresh (key : String) (lifetime : Lifetime)
  /-- Ask for the data of a key and its time, fresh or not. -/
  | entry (key : String)
  | delete (key : String)
  | clear
  /-- Ask for the number of keys. -/
  | size
  | setClock (now : Millis)
  /-- Let time pass; the clock wraps around. -/
  | advance (millis : Millis)
  deriving DecidableEq, Repr, Inhabited

/-- The reply to an action. -/
inductive Reply (α : Type) where
  | done
  | data (data : Option α)
  | found (finding : Finding α)
  | answer (yes : Bool)
  | entry (entry : Option (Entry α))
  | count (n : Nat)
  deriving DecidableEq, Repr, Inhabited

/-- A shelf and the clock that it reads. -/
structure Timed (α : Type) where
  shelf : Shelf α
  now : Millis

/-- Perform an action. -/
def Timed.perform (s : Timed α) : Action α → Reply α × Timed α
  | .set key data => (.done, { s with shelf := s.shelf.store s.now key data })
  | .get key => (.data (s.shelf.get? s.now key), s)
  | .find key => (.found (s.shelf.find s.now key), s)
  | .hasFresh key lifetime => (.answer (s.shelf.hasFresh s.now key lifetime), s)
  | .entry key => (.entry (s.shelf.held? key), s)
  | .delete key =>
    let (had, shelf) := s.shelf.remove key
    (.answer had, { s with shelf })
  | .clear => (.done, { s with shelf := s.shelf.clear })
  | .size => (.count s.shelf.size, s)
  | .setClock now => (.done, { s with now })
  | .advance millis => (.done, { s with now := s.now + millis })

/-- A shelf without data, after these actions. -/
def run (lifetime : Lifetime) (start : Millis) (actions : List (Action α)) : Timed α :=
  actions.foldl (fun s a => (s.perform a).2) ⟨.empty lifetime, start⟩

/-- The reply to one action more. -/
def reply (lifetime : Lifetime) (start : Millis) (actions : List (Action α)) (a : Action α) :
    Reply α :=
  ((run lifetime start actions).perform a).1

namespace Action

/-- The time after an action. -/
def tick (now : Millis) : Action α → Millis
  | .setClock now => now
  | .advance millis => now + millis
  | _ => now

/-- Nothing is left of what the key had before. -/
def Ends (key : String) (a : Action α) : Prop :=
  (∃ data, a = .set key data) ∨ a = .delete key ∨ a = .clear

/-- The action only asks. -/
def asks : Action α → Bool
  | .get _ | .find _ | .hasFresh _ _ | .entry _ | .size => true
  | _ => false

end Action

/-- The time after these actions. -/
def clockAfter (start : Millis) (actions : List (Action α)) : Millis :=
  actions.foldl (fun now a => a.tick now) start

/-- The last set of a key gave it this data at this time, and the key was not deleted since. -/
def LastSet (start : Millis) (actions : List (Action α)) (key : String) (e : Entry α) : Prop :=
  Standing (fun before a => a = .set key e.data ∧ clockAfter start before = e.storedAt)
    (fun _ a => a.Ends key) actions

variable {lifetime : Lifetime} {start : Millis} {actions : List (Action α)} {a : Action α}
  {key : String} {e : Entry α}

theorem run_snoc (lifetime : Lifetime) (start : Millis) (actions : List (Action α))
    (a : Action α) :
    run lifetime start (actions ++ [a]) = ((run lifetime start actions).perform a).2 := by
  simp [run]

theorem clockAfter_snoc (start : Millis) (actions : List (Action α)) (a : Action α) :
    clockAfter start (actions ++ [a]) = a.tick (clockAfter start actions) := by
  simp [clockAfter]

/-! ## The last set of a key -/

theorem lastSet_snoc :
    LastSet start (actions ++ [a]) key e ↔
      (a = .set key e.data ∧ clockAfter start actions = e.storedAt) ∨
        ¬ a.Ends key ∧ LastSet start actions key e :=
  standing_snoc

/-- An action that leaves a key alone leaves its last set as it is. -/
theorem lastSet_snoc_of_not_ends (h : ¬ a.Ends key) :
    LastSet start (actions ++ [a]) key e ↔ LastSet start actions key e := by
  rw [lastSet_snoc]
  constructor
  · rintro (⟨hset, -⟩ | ⟨-, hlast⟩)
    · exact absurd (Or.inl ⟨e.data, hset⟩) h
    · exact hlast
  · intro hlast
    exact Or.inr ⟨h, hlast⟩

/-- A key has a last set if it was set and later neither deleted nor cleared, though perhaps set
again. -/
theorem exists_lastSet_iff :
    (∃ e, LastSet start actions key e) ↔
      ∃ before data after, actions = before ++ .set key data :: after ∧
        ∀ a ∈ after, a ≠ .delete key ∧ a ≠ .clear := by
  constructor
  · rintro ⟨e, before, a, after, he, ⟨rfl, -⟩, hlast⟩
    refine ⟨before, e.data, after, he, fun a ha => ?_⟩
    obtain ⟨between, rest, hsplit⟩ := List.append_of_mem ha
    have hends := hlast between a rest hsplit
    exact ⟨fun h => hends (Or.inr (Or.inl h)), fun h => hends (Or.inr (Or.inr h))⟩
  · rintro ⟨before, data, after, rfl, hkept⟩
    induction after using List.reverseRecOn with
    | nil => exact ⟨⟨data, clockAfter start before⟩, lastSet_snoc.mpr (Or.inl ⟨rfl, rfl⟩)⟩
    | append_singleton after a ih =>
        rw [← List.cons_append, ← List.append_assoc]
        obtain ⟨hdelete, hclear⟩ := hkept a (by simp)
        -- what comes last either sets the key again or leaves it alone
        by_cases hset : ∃ data, a = .set key data
        · obtain ⟨data', rfl⟩ := hset
          exact ⟨⟨data', clockAfter start _⟩, lastSet_snoc.mpr (Or.inl ⟨rfl, rfl⟩)⟩
        · have hends : ¬ a.Ends key := by
            rintro (h | h | h)
            · exact hset h
            · exact hdelete h
            · exact hclear h
          obtain ⟨e, he⟩ := ih fun x hx => hkept x (List.mem_append_left _ hx)
          exact ⟨e, (lastSet_snoc_of_not_ends hends).mpr he⟩

/-- A key has no last set if every set of it was followed by a delete of it or by a clear. -/
theorem not_exists_lastSet_iff :
    (¬ ∃ e, LastSet start actions key e) ↔
      ∀ before data after, actions = before ++ .set key data :: after →
        ∃ a ∈ after, a = .delete key ∨ a = .clear := by
  rw [exists_lastSet_iff]
  constructor
  · intro hnone before data after he
    by_contra hkept
    refine hnone ⟨before, data, after, he, fun a ha => ?_⟩
    exact ⟨fun hd => hkept ⟨a, ha, Or.inl hd⟩, fun hc => hkept ⟨a, ha, Or.inr hc⟩⟩
  · rintro hremoved ⟨before, data, after, he, hkept⟩
    obtain ⟨a, ha, hd | hc⟩ := hremoved before data after he
    · exact (hkept a ha).1 hd
    · exact (hkept a ha).2 hc

/-- What is the last set after actions that do not set the key was so before them. -/
theorem LastSet.of_append {before after : List (Action α)} (hset : ∀ data, .set key data ∉ after)
    (h : LastSet start (before ++ after) key e) : LastSet start before key e := by
  induction after using List.reverseRecOn with
  | nil => rwa [List.append_nil] at h
  | append_singleton after a ih =>
      rw [← List.append_assoc] at h
      rcases lastSet_snoc.mp h with ⟨ha, -⟩ | ⟨-, hlast⟩
      · exact absurd (by simp [ha]) (hset e.data)
      · exact ih (fun data hmem => hset data (List.mem_append_left _ hmem)) hlast

/-! ## What the shelf holds -/

/-- The shelf holds the last set of each key, and the clock shows the time. -/
structure Holds (lifetime : Lifetime) (start : Millis) (actions : List (Action α))
    (s : Timed α) : Prop where
  lifetime : s.shelf.lifetime = lifetime
  now : s.now = clockAfter start actions
  held : ∀ key e, s.shelf.held? key = some e ↔ LastSet start actions key e

variable {s : Timed α}

theorem holds_empty (lifetime : Lifetime) (start : Millis) :
    Holds lifetime start [] (⟨.empty lifetime, start⟩ : Timed α) where
  lifetime := rfl
  now := rfl
  held := by
    intro key e
    rw [held?_empty]
    exact ⟨fun h => absurd h (by simp), fun h => absurd h not_standing_nil⟩

/-- An action that leaves all keys alone keeps the invariant, whatever it does to the clock. -/
theorem Holds.keep (h : Holds lifetime start actions s) (hends : ∀ key, ¬ a.Ends key) :
    Holds lifetime start (actions ++ [a]) ⟨s.shelf, a.tick s.now⟩ where
  lifetime := h.lifetime
  now := by rw [clockAfter_snoc, ← h.now]
  held := by
    intro key e
    rw [lastSet_snoc_of_not_ends (hends key)]
    exact h.held key e

theorem Holds.perform (h : Holds lifetime start actions s) (a : Action α) :
    Holds lifetime start (actions ++ [a]) (s.perform a).2 := by
  cases a with
  | set key data =>
      refine ⟨h.lifetime, by rw [clockAfter_snoc]; exact h.now, fun k e => ?_⟩
      show (s.shelf.store s.now key data).held? k = some e ↔ _
      -- for its own key the action is the last set, at the time that the clock shows
      rw [held?_store, lastSet_snoc, ← h.held, ← h.now]
      obtain ⟨data', time⟩ := e
      by_cases hk : key = k
      · simp [hk, Action.Ends]
      · simp [hk, Action.Ends]
  | delete key =>
      refine ⟨h.lifetime, by rw [clockAfter_snoc]; exact h.now, fun k e => ?_⟩
      show (s.shelf.delete key).held? k = some e ↔ _
      rw [held?_delete, lastSet_snoc, ← h.held]
      by_cases hk : key = k
      · simp [hk, Action.Ends]
      · simp [hk, Action.Ends]
  | clear =>
      refine ⟨h.lifetime, by rw [clockAfter_snoc]; exact h.now, fun k e => ?_⟩
      show s.shelf.clear.held? k = some e ↔ _
      rw [held?_clear, lastSet_snoc]
      simp [Action.Ends]
  | get key => exact h.keep (by simp [Action.Ends])
  | find key => exact h.keep (by simp [Action.Ends])
  | hasFresh key limit => exact h.keep (by simp [Action.Ends])
  | entry key => exact h.keep (by simp [Action.Ends])
  | size => exact h.keep (by simp [Action.Ends])
  | setClock now => exact h.keep (by simp [Action.Ends])
  | advance millis => exact h.keep (by simp [Action.Ends])

theorem holds_run (lifetime : Lifetime) (start : Millis) (actions : List (Action α)) :
    Holds lifetime start actions (run lifetime start actions) := by
  induction actions using List.reverseRecOn with
  | nil => exact holds_empty lifetime start
  | append_singleton actions a ih =>
      rw [run_snoc]
      exact ih.perform a

/-! ## What a shelf replies -/

section

variable (sh : Shelf α) (now : Millis)

theorem find_eq_of_held {e : Entry α} (h : sh.held? key = some e) :
    sh.find now key =
      if now.toNat - e.storedAt.toNat < sh.lifetime.millis.toNat then .fresh e.data
      else .stale := by
  rw [find, h]
  exact if_congr decide_eq_true_iff rfl rfl

theorem find_eq_missing_iff : sh.find now key = .missing ↔ sh.held? key = none := by
  cases h : sh.held? key with
  | none => simp [find, h]
  | some e =>
      rw [find_eq_of_held sh now h]
      split <;> simp

theorem find_eq_fresh_iff {data : α} :
    sh.find now key = .fresh data ↔
      ∃ e, sh.held? key = some e ∧ now.toNat - e.storedAt.toNat < sh.lifetime.millis.toNat ∧
        e.data = data := by
  cases h : sh.held? key with
  | none => simp [find, h]
  | some e =>
      rw [find_eq_of_held sh now h]
      split <;> simp [*]

theorem get?_eq_some_iff {data : α} :
    sh.get? now key = some data ↔ sh.find now key = .fresh data := by
  rw [get?]
  cases sh.find now key <;> simp [Finding.data?]

theorem hasFresh_iff {limit : Lifetime} :
    sh.hasFresh now key limit = true ↔
      ∃ e, sh.held? key = some e ∧ now.toNat - e.storedAt.toNat < limit.millis.toNat := by
  rw [hasFresh, Option.any_eq_true]
  exact exists_congr fun e => and_congr_right fun _ => decide_eq_true_iff

/-- Keys are not counted twice. -/
theorem size_eq_ncard : sh.size = {key | ∃ e, sh.held? key = some e}.ncard := by
  have hnodup : sh.entries.keys.Nodup := by
    refine List.Pairwise.map _ (fun a b hab => ?_) sh.entries.sorted
    exact fun he => String.lt_irrefl _ (he ▸ hab)
  have hkeys : {key | ∃ e, sh.held? key = some e} = ↑sh.entries.keys.toFinset := by
    ext key
    rw [Set.mem_ofPred_eq, List.coe_toFinset, Set.mem_ofPred_eq, Dict.mem_keys_iff]
    rfl
  rw [hkeys, Set.ncard_coe_finset, List.toFinset_card_of_nodup hnodup, Dict.keys,
    List.length_map]
  rfl

end

/-! ## What it replies after some actions -/

theorem reply_find_eq_missing_iff :
    reply lifetime start actions (.find key) = .found .missing ↔
      ¬ ∃ e, LastSet start actions key e := by
  show Reply.found _ = _ ↔ _
  rw [Reply.found.injEq, find_eq_missing_iff, Option.eq_none_iff_forall_ne_some, not_exists]
  exact forall_congr' fun e => not_congr ((holds_run lifetime start actions).held key e)

theorem reply_find_of_lastSet (h : LastSet start actions key e) :
    reply lifetime start actions (.find key) = .found
      (if (clockAfter start actions).toNat - e.storedAt.toNat < lifetime.millis.toNat
        then .fresh e.data else .stale) := by
  have hholds := holds_run lifetime start actions
  have hfind := find_eq_of_held _ (run lifetime start actions).now ((hholds.held key e).mpr h)
  rw [hholds.lifetime, hholds.now] at hfind
  rw [← hfind, ← hholds.now]
  rfl

theorem reply_find_eq_fresh_iff {data : α} :
    reply lifetime start actions (.find key) = .found (.fresh data) ↔
      ∃ e, LastSet start actions key e ∧
        (clockAfter start actions).toNat - e.storedAt.toNat < lifetime.millis.toNat ∧
        e.data = data := by
  have h := holds_run lifetime start actions
  show Reply.found _ = _ ↔ _
  rw [Reply.found.injEq, find_eq_fresh_iff, h.lifetime, h.now]
  exact exists_congr fun e => and_congr_left' (h.held key e)

theorem reply_get_eq_iff {data : α} :
    reply lifetime start actions (.get key) = .data (some data) ↔
      reply lifetime start actions (.find key) = .found (.fresh data) := by
  show Reply.data _ = _ ↔ Reply.found _ = _
  rw [Reply.data.injEq, Reply.found.injEq, get?_eq_some_iff]

theorem reply_hasFresh_iff {limit : Lifetime} :
    reply lifetime start actions (.hasFresh key limit) = .answer true ↔
      ∃ e, LastSet start actions key e ∧
        (clockAfter start actions).toNat - e.storedAt.toNat < limit.millis.toNat := by
  have h := holds_run lifetime start actions
  show Reply.answer _ = _ ↔ _
  rw [Reply.answer.injEq, hasFresh_iff, h.now]
  exact exists_congr fun e => and_congr_left' (h.held key e)

theorem reply_entry_eq_iff :
    reply lifetime start actions (.entry key) = .entry (some e) ↔
      LastSet start actions key e := by
  show Reply.entry _ = _ ↔ _
  rw [Reply.entry.injEq]
  exact (holds_run lifetime start actions).held key e

theorem reply_delete_eq_iff :
    reply lifetime start actions (.delete key) = .answer true ↔
      ∃ e, LastSet start actions key e := by
  show Reply.answer (Option.isSome _) = _ ↔ _
  rw [Reply.answer.injEq, Option.isSome_iff_exists]
  exact exists_congr ((holds_run lifetime start actions).held key)

theorem reply_size (lifetime : Lifetime) (start : Millis) (actions : List (Action α)) :
    reply lifetime start actions .size =
      .count {key | ∃ e, LastSet start actions key e}.ncard := by
  show Reply.count _ = _
  rw [size_eq_ncard]
  simp only [(holds_run lifetime start actions).held]

theorem run_asks (h : a.asks = true) :
    run lifetime start (actions ++ [a]) = run lifetime start actions := by
  rw [run_snoc]
  cases a with
  | get | find | hasFresh | entry | size => rfl
  | set | delete | clear | setClock | advance => exact absurd h (by simp [Action.asks])

/-- **What is fresh was fresh before**, if the key was not set since and the clock is not earlier
now than it was then. -/
theorem fresh_before {before after : List (Action α)} (hset : ∀ data, .set key data ∉ after)
    (hclock : clockAfter start before ≤ clockAfter start (before ++ after)) {data : α}
    (h : reply lifetime start (before ++ after) (.find key) = .found (.fresh data)) :
    reply lifetime start before (.find key) = .found (.fresh data) := by
  obtain ⟨e, hlast, hage, hdata⟩ := reply_find_eq_fresh_iff.mp h
  -- the same entry was there, and it was no older
  have hle := UInt64.le_iff_toNat_le.mp hclock
  exact reply_find_eq_fresh_iff.mpr ⟨e, hlast.of_append hset, by omega, hdata⟩

/--
**A shelf replies by the last set of a key and the clock.** A look-up misses a key just when every
set of it was followed by a delete of it or by a clear. Otherwise it finds the data of the last set
fresh while that is younger than the lifetime, and stale from the moment it is as old; a time to
come has the age zero. The other questions agree with this: they ask for fresh data, for data
that is fresh by a lifetime of their own, for the last set itself, for whether a deleted key had
one and for how many keys have one. Questions change nothing. And while a key is not set, what
is not fresh does not become fresh again, unless the clock goes back.
-/
theorem reply_follows_lastSet (lifetime : Lifetime) (start : Millis) (actions : List (Action α))
    (key : String) :
    (reply lifetime start actions (.find key) = .found .missing ↔
      ∀ before data after, actions = before ++ .set key data :: after →
        ∃ a ∈ after, a = .delete key ∨ a = .clear) ∧
    (reply lifetime start actions (.find key) ≠ .found .missing →
      ∃ e, LastSet start actions key e ∧
        reply lifetime start actions (.find key) = .found
          (if (clockAfter start actions).toNat - e.storedAt.toNat < lifetime.millis.toNat
            then .fresh e.data else .stale)) ∧
    (∀ data, reply lifetime start actions (.get key) = .data (some data) ↔
      reply lifetime start actions (.find key) = .found (.fresh data)) ∧
    (∀ limit, reply lifetime start actions (.hasFresh key limit) = .answer true ↔
      ∃ e, LastSet start actions key e ∧
        (clockAfter start actions).toNat - e.storedAt.toNat < limit.millis.toNat) ∧
    (reply lifetime start actions (.hasFresh key lifetime) = .answer true ↔
      ∃ data, reply lifetime start actions (.get key) = .data (some data)) ∧
    (∀ e, reply lifetime start actions (.entry key) = .entry (some e) ↔
      LastSet start actions key e) ∧
    (reply lifetime start actions (.delete key) = .answer true ↔
      ∃ e, LastSet start actions key e) ∧
    reply lifetime start actions .size = .count {k | ∃ e, LastSet start actions k e}.ncard ∧
    (∀ a : Action α, a.asks = true →
      run lifetime start (actions ++ [a]) = run lifetime start actions) ∧
    ∀ after, (∀ data, .set key data ∉ after) →
      clockAfter start actions ≤ clockAfter start (actions ++ after) →
      (∀ data, reply lifetime start actions (.find key) ≠ .found (.fresh data)) →
      ∀ data, reply lifetime start (actions ++ after) (.find key) ≠ .found (.fresh data) := by
  refine ⟨reply_find_eq_missing_iff.trans not_exists_lastSet_iff, ?_,
    fun data => reply_get_eq_iff, fun limit => reply_hasFresh_iff, ?_,
    fun e => reply_entry_eq_iff, reply_delete_eq_iff, reply_size lifetime start actions,
    fun a => run_asks, ?_⟩
  · intro hfound
    obtain ⟨e, hlast⟩ := Classical.not_not.mp (mt reply_find_eq_missing_iff.mpr hfound)
    exact ⟨e, hlast, reply_find_of_lastSet hlast⟩
  · rw [reply_hasFresh_iff]
    constructor
    · rintro ⟨e, hlast, hage⟩
      exact ⟨e.data, reply_get_eq_iff.mpr (reply_find_eq_fresh_iff.mpr ⟨e, hlast, hage, rfl⟩)⟩
    · rintro ⟨data, hget⟩
      obtain ⟨e, hlast, hage, -⟩ := reply_find_eq_fresh_iff.mp (reply_get_eq_iff.mp hget)
      exact ⟨e, hlast, hage⟩
  · intro after hset hclock hnot data hfresh
    exact hnot data (fresh_before hset hclock hfresh)

/-- A clock that is advanced once around is set back: stale data is fresh again. -/
example :
    reply ⟨100⟩ 1000 [.set "k" 1, .advance 100] (.find "k") = .found (.stale : Finding Nat) ∧
      reply ⟨100⟩ 1000 [.set "k" 1, .advance 100, .advance 0xFFFFFFFFFFFFFFFF] (.find "k") =
        .found (.fresh 1) := by
  decide

end LogQL.Cache.Shelf
