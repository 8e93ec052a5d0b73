import LogQL.Cache.Lifetime
import LogQL.Dict

/-!
# Data with a lifetime

A shelf keeps data by key together with the time it was stored. Reading never removes anything:
data past its lifetime stays until it is replaced or deleted, and a look-up tells it apart from
data that was never there.
-/

namespace LogQL

namespace Cache

/-- Data and the time at which it was stored. -/
structure Entry (α : Type) where
  data : α
  storedAt : Millis
  deriving DecidableEq, Repr, Inhabited

/-- What a look-up finds. -/
inductive Finding (α : Type) where
  | fresh (data : α)
  | stale
  | missing
  deriving DecidableEq, Repr, Inhabited

/-- The data of a look-up that found it fresh. -/
def Finding.data? {α : Type} : Finding α → Option α
  | .fresh data => some data
  | _ => none

/-- Data by key, with one lifetime for all of it. -/
structure Shelf (α : Type) where
  lifetime : Lifetime
  entries : Dict (Entry α)

namespace Shelf

variable {α : Type}

/-- A shelf without data. -/
def empty (lifetime : Lifetime) : Shelf α := ⟨lifetime, .empty⟩

/-- The data of a key and its time, fresh or not. -/
def held? (s : Shelf α) (key : String) : Option (Entry α) := s.entries.get? key

/-- Look a key up. -/
def find (s : Shelf α) (now : Millis) (key : String) : Finding α :=
  match s.held? key with
  | some e => if s.lifetime.covers e.storedAt now then .fresh e.data else .stale
  | none => .missing

/-- The data of a key, if it is fresh. -/
def get? (s : Shelf α) (now : Millis) (key : String) : Option α := (s.find now key).data?

/-- Whether a key has data that is fresh by another lifetime than the shelf's own. -/
def hasFresh (s : Shelf α) (now : Millis) (key : String) (lifetime : Lifetime) : Bool :=
  (s.held? key).any (lifetime.covers ·.storedAt now)

/-- Store data, over what the key has. -/
def store (s : Shelf α) (now : Millis) (key : String) (data : α) : Shelf α :=
  { s with entries := s.entries.insert key ⟨data, now⟩ }

/-- Forget a key. -/
def delete (s : Shelf α) (key : String) : Shelf α := { s with entries := s.entries.erase key }

/-- Forget a key, and say whether it had data. -/
def remove (s : Shelf α) (key : String) : Bool × Shelf α := ((s.held? key).isSome, s.delete key)

/-- Forget everything. -/
def clear (s : Shelf α) : Shelf α := { s with entries := .empty }

/-- The number of keys that have data, fresh or not. -/
def size (s : Shelf α) : Nat := s.entries.size

@[simp] theorem held?_empty (lifetime : Lifetime) (key : String) :
    (empty lifetime : Shelf α).held? key = none := rfl

theorem held?_store (s : Shelf α) (now : Millis) (key : String) (data : α) (k : String) :
    (s.store now key data).held? k = if key = k then some ⟨data, now⟩ else s.held? k :=
  Dict.get?_insert ..

theorem held?_delete (s : Shelf α) (key k : String) :
    (s.delete key).held? k = if key = k then none else s.held? k :=
  Dict.get?_erase ..

@[simp] theorem held?_clear (s : Shelf α) (key : String) : s.clear.held? key = none := rfl

end Shelf

end Cache

end LogQL
