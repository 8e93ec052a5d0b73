import LogQL.Proofs.Cache.Contents

/-!
# The label cache as a flat register

A register is the plainest thing that could be used in place of a label cache: one table with an
entry for a source and a question, and a set of known sources. There is one level instead of two, no
shelf, and nothing that is made on demand or left behind empty.

Both are run by the same actions, under a clock that is set at will, and both reply to each of them.
Started without entries, they reply alike however long the run is (`replies_eq_register`). What
carries this is that they agree (`Agrees`): they hold the same entries, they know the same sources,
and all shelves of the cache have the lifetime of the register. No action breaks the agreement, and
where they agree they reply alike (`Agrees.perform`).
-/

namespace LogQL.Cache

/-- Something to do with a cache. -/
inductive Action where
  | store (source : String) (q : Question) (data : List String)
  /-- Ask for the data of an entry that is fresh. -/
  | read (source : String) (q : Question)
  /-- Ask for the time of an entry, fresh or not. -/
  | storedAt (source : String) (q : Question)
  | forget (c : Clear)
  | setClock (now : Millis)
  deriving DecidableEq, Repr, Inhabited

/-- The reply to an action. -/
inductive Reply where
  | done
  | data (values : Option (List String))
  | time (storedAt : Option Millis)
  deriving DecidableEq, Repr, Inhabited

/-- The replies to actions that are performed one after the other. -/
def replies {σ : Type} (perform : σ → Action → Reply × σ) : σ → List Action → List Reply
  | _, [] => []
  | s, a :: rest => (perform s a).1 :: replies perform (perform s a).2 rest

/-! ## The cache -/

/-- A label cache and the clock that it reads. -/
structure Clocked where
  cache : Labels
  now : Millis

namespace Clocked

/-- Perform an action. -/
def perform (s : Clocked) : Action → Reply × Clocked
  | .store source q data => (.done, { s with cache := s.cache.store s.now source q data })
  | .read source q =>
    let (found, cache) := s.cache.read s.now source q
    (.data found, { s with cache })
  | .storedAt source q => (.time ((s.cache.held? source q).map Entry.storedAt), s)
  | .forget c => (.done, { s with cache := s.cache.forget c })
  | .setClock now => (.done, { s with now })

end Clocked

/-! ## The register -/

/-- Entries by source and question, and the known sources. -/
structure Register where
  lifetime : Lifetime
  now : Millis
  held : String → Question → Option (Entry (List String))
  known : Finset String

namespace Register

/-- No entries and no known sources. -/
def empty (lifetime : Lifetime) (now : Millis) : Register := ⟨lifetime, now, fun _ _ => none, ∅⟩

/-- Whether an entry is younger than the lifetime; one from the future is as young as can be. -/
def isFresh (r : Register) (e : Entry (List String)) : Bool :=
  r.now.toNat - e.storedAt.toNat < r.lifetime.millis.toNat

/-- Perform an action. -/
def perform (r : Register) : Action → Reply × Register
  | .store source q data =>
    (.done,
      { r with
        held := fun s p => if source = s ∧ q = p then some ⟨data, r.now⟩ else r.held s p
        known := q.learn r.known source })
  | .read source q => (.data (((r.held source q).filter r.isFresh).map Entry.data), r)
  | .storedAt source q => (.time ((r.held source q).map Entry.storedAt), r)
  | .forget c =>
    (.done,
      { r with
        held := fun s p => if c.covers r.known s p then none else r.held s p
        known := c.unlearn r.known })
  | .setClock now => (.done, { r with now })

end Register

/-! ## They reply alike -/

/-- A register and a cache that hold the same entries and know the same sources. -/
structure Agrees (r : Register) (s : Clocked) : Prop where
  now : s.now = r.now
  held : ∀ source q, s.cache.held? source q = r.held source q
  knows : s.cache.Knows r.known
  lasts : s.cache.Lasts r.lifetime

theorem agrees_empty (lifetime : Lifetime) (now : Millis) :
    Agrees (.empty lifetime now) ⟨.empty lifetime, now⟩ where
  now := rfl
  held := Labels.held?_empty lifetime
  knows := Labels.knows_empty lifetime
  lasts := Labels.lasts_empty lifetime

variable {r : Register} {s : Clocked}

theorem Agrees.data?_read (h : Agrees r s) (source : String) (q : Question) :
    (s.cache.read s.now source q).1 = ((r.held source q).filter r.isFresh).map Entry.data := by
  rw [h.lasts.data?_read, h.held, h.now]
  rfl

/-- **Where a register and a cache agree, they reply alike and still agree afterwards.** -/
theorem Agrees.perform (h : Agrees r s) (a : Action) :
    (s.perform a).1 = (r.perform a).1 ∧ Agrees (r.perform a).2 (s.perform a).2 := by
  cases a with
  | store source q data =>
      refine ⟨rfl, h.now, fun s' p => ?_, h.knows.store s.now source q data,
        h.lasts.store s.now source q data⟩
      show (s.cache.store s.now source q data).held? s' p = _
      rw [Labels.held?_store, h.held, h.now]
      rfl
  | read source q =>
      refine ⟨congrArg Reply.data (h.data?_read source q), h.now, fun s' p => ?_,
        h.knows.read s.now source q, h.lasts.read s.now source q⟩
      show (s.cache.read s.now source q).2.held? s' p = _
      rw [Labels.held?_read, h.held]
      rfl
  | storedAt source q =>
      refine ⟨?_, h⟩
      show Reply.time ((s.cache.held? source q).map Entry.storedAt) = _
      rw [h.held]
      rfl
  | forget c =>
      refine ⟨rfl, h.now, fun s' p => ?_, h.knows.forget c, h.lasts.forget h.knows c⟩
      show (s.cache.forget c).held? s' p = _
      rw [Labels.held?_forget h.knows, h.held]
      rfl
  | setClock now => exact ⟨rfl, rfl, h.held, h.knows, h.lasts⟩

theorem Agrees.replies (h : Agrees r s) (actions : List Action) :
    replies Clocked.perform s actions = replies Register.perform r actions := by
  induction actions generalizing r s with
  | nil => rfl
  | cons a rest ih =>
      obtain ⟨hreply, hagrees⟩ := h.perform a
      unfold Cache.replies
      rw [hreply, ih hagrees]

/-- **A label cache replies like a register**, to any actions and under any moves of the clock. -/
theorem replies_eq_register (lifetime : Lifetime) (start : Millis) (actions : List Action) :
    replies Clocked.perform ⟨.empty lifetime, start⟩ actions =
      replies Register.perform (.empty lifetime start) actions :=
  (agrees_empty lifetime start).replies actions

/-- A source stays known when its last entry is cleared, so another clear that names it leaves the
entries of other sources alone. -/
example :
    replies Clocked.perform ⟨.empty .default, 0⟩
      [.store "a" (.values "job") ["api"], .store "b" (.values "job") ["worker"],
        .forget (.values (some "a") (some "job")), .forget (.values (some "a") none),
        .read "b" (.values "job"), .forget (.values (some "a") none),
        .storedAt "b" (.values "job")] =
      [.done, .done, .done, .done, .data (some ["worker"]), .done, .time none] := by
  decide

end LogQL.Cache
