import LogQL.Proofs.Cache.Register

/-!
# The counters of a cache

The counters are beside the point of a cache: they are written by every read and every store, and
nothing reads them. So two caches that differ in their counters only (`Labels.Alike`) find the same
in every read, and no operation makes them differ in more.

What an operation does to the counters is as simple. A read adds one to the counter of what it
found, a store adds one to the stores, and a clear leaves all four. Since sums do not depend on the
order of their terms, a read that is made earlier or later, or on the side, adds the same
(`Counters.read_read`, `Counters.read_stored`).
-/

namespace LogQL.Cache

variable {α β : Type}

namespace Counters

variable (c : Counters)

/-- All reads so far. -/
def reads : UInt64 := c.hits + c.misses + c.staleHits

/-- The reads so far that found nothing fresh. -/
def failures : UInt64 := c.misses + c.staleHits

theorem reads_read (f : Finding α) : (c.read f).reads = c.reads + 1 := by
  cases f with
  | fresh _ => simp only [reads, read, hit]; ac_rfl
  | stale => simp only [reads, read, stale]; ac_rfl
  | missing => simp only [reads, read, miss]; ac_rfl

theorem failures_read (f : Finding α) :
    (c.read f).failures = if f.data?.isSome then c.failures else c.failures + 1 := by
  cases f with
  | fresh _ => rfl
  | stale => simp only [failures, read, stale, Finding.data?]; ac_rfl
  | missing => simp only [failures, read, miss, Finding.data?]; ac_rfl

@[simp] theorem stores_read (f : Finding α) : (c.read f).stores = c.stores := by
  cases f <;> rfl

theorem read_read (f : Finding α) (g : Finding β) : (c.read f).read g = (c.read g).read f := by
  cases f <;> cases g <;> rfl

theorem read_stored (f : Finding α) : (c.read f).stored = c.stored.read f := by
  cases f <;> rfl

end Counters

namespace Labels

variable {c d : Labels}

/-! ## What the operations count -/

@[simp] theorem counters_read (c : Labels) (now : Millis) (source : String) (q : Question) :
    (c.read now source q).2.counters = c.counters.read (c.find now source q) := rfl

@[simp] theorem counters_store (c : Labels) (now : Millis) (source : String) (q : Question)
    (data : List String) : (c.store now source q data).counters = c.counters.stored := by
  cases q <;> rfl

@[simp] theorem counters_forget (c : Labels) (k : Clear) : (c.forget k).counters = c.counters := by
  cases k with
  | all => rfl
  | names source => cases source <;> rfl
  | values source label =>
      simp only [Labels.forget, clearValues]
      split <;> rfl

/-! ## Caches that differ in their counters only -/

/-- Two caches with the same data. -/
structure Alike (c d : Labels) : Prop where
  lifetime : c.lifetime = d.lifetime
  names : c.names = d.names
  values : c.values = d.values

theorem Alike.eq (h : c.Alike d) : d = { c with counters := d.counters } := by
  cases c
  cases d
  obtain ⟨rfl, rfl, rfl⟩ := h
  rfl

theorem alike_read (c : Labels) (now : Millis) (source : String) (q : Question) :
    c.Alike (c.read now source q).2 := ⟨rfl, rfl, rfl⟩

theorem Alike.held? (h : c.Alike d) (source : String) (q : Question) :
    d.held? source q = c.held? source q := by
  rw [h.eq]
  cases q <;> rfl

theorem Alike.find (h : c.Alike d) (now : Millis) (source : String) (q : Question) :
    d.find now source q = c.find now source q := by
  rw [h.eq]
  cases q <;> rfl

/-- **They find the same**, and stay alike. -/
theorem Alike.read (h : c.Alike d) (now : Millis) (source : String) (q : Question) :
    (d.read now source q).1 = (c.read now source q).1 ∧
      (c.read now source q).2.Alike (d.read now source q).2 :=
  ⟨congrArg Finding.data? (h.find now source q), h.lifetime, h.names, h.values⟩

theorem Alike.store (h : c.Alike d) (now : Millis) (source : String) (q : Question)
    (data : List String) : (c.store now source q data).Alike (d.store now source q data) := by
  rw [h.eq]
  cases q <;> exact ⟨rfl, rfl, rfl⟩

theorem Alike.forget (h : c.Alike d) (k : Clear) : (c.forget k).Alike (d.forget k) := by
  rw [h.eq]
  cases k with
  | all => exact ⟨rfl, rfl, rfl⟩
  | names source => cases source <;> exact ⟨rfl, rfl, rfl⟩
  | values source label =>
      -- which values are cleared depends on the values alone
      simp only [Labels.forget, clearValues]
      split <;> exact ⟨rfl, rfl, rfl⟩

/-! ## Actions on alike caches -/

theorem Alike.perform (h : c.Alike d) (now : Millis) (a : Action) :
    (Clocked.perform ⟨d, now⟩ a).1 = (Clocked.perform ⟨c, now⟩ a).1 ∧
      (Clocked.perform ⟨d, now⟩ a).2.now = (Clocked.perform ⟨c, now⟩ a).2.now ∧
      (Clocked.perform ⟨c, now⟩ a).2.cache.Alike (Clocked.perform ⟨d, now⟩ a).2.cache := by
  cases a with
  | store source q data => exact ⟨rfl, rfl, h.store now source q data⟩
  | read source q =>
      obtain ⟨hsame, halike⟩ := h.read now source q
      exact ⟨congrArg Reply.data hsame, rfl, halike⟩
  | storedAt source q =>
      refine ⟨?_, rfl, h⟩
      show Reply.time ((d.held? source q).map Entry.storedAt) = _
      rw [h.held?]
      rfl
  | forget k => exact ⟨rfl, rfl, h.forget k⟩
  | setClock now => exact ⟨rfl, rfl, h⟩

/-- **Alike caches reply alike to whatever is done to them.** -/
theorem Alike.replies (h : c.Alike d) (now : Millis) (actions : List Action) :
    replies Clocked.perform ⟨d, now⟩ actions = replies Clocked.perform ⟨c, now⟩ actions := by
  induction actions generalizing c d now with
  | nil => rfl
  | cons a rest ih =>
      obtain ⟨hreply, hnow, halike⟩ := h.perform now a
      have hrest := ih halike (Clocked.perform ⟨c, now⟩ a).2.now
      unfold Cache.replies
      rw [hreply]
      refine congrArg _ ?_
      rw [← hrest, ← hnow]

end Labels

end LogQL.Cache
