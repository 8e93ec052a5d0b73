import LogQL.Cache.Shelf
import LogQL.Number.Double

/-!
# Counting cache reads

Four counters of 64 bits: reads that were answered, reads that found nothing, reads that found
only stale data, and stores. The hit rate is the share of the first among all reads, in percent.
-/

namespace LogQL.Cache

/-- What was asked of a cache so far. -/
structure Counters where
  hits : UInt64
  misses : UInt64
  staleHits : UInt64
  stores : UInt64
  deriving DecidableEq, Repr, Inhabited

namespace Counters

/-- Nothing was asked yet. -/
def zero : Counters := ⟨0, 0, 0, 0⟩

/-- A read was answered. -/
def hit (c : Counters) : Counters := { c with hits := c.hits + 1 }

/-- A read found nothing. -/
def miss (c : Counters) : Counters := { c with misses := c.misses + 1 }

/-- A read found only stale data. -/
def stale (c : Counters) : Counters := { c with staleHits := c.staleHits + 1 }

/-- Data was stored. -/
def stored (c : Counters) : Counters := { c with stores := c.stores + 1 }

/-- Count a read by what it found. -/
def read {α : Type} (c : Counters) : Finding α → Counters
  | .fresh _ => c.hit
  | .stale => c.stale
  | .missing => c.miss

/-- The share of reads that were answered, in percent; zero if there were none. -/
def hitRate (c : Counters) : Double :=
  let total := c.hits + c.misses + c.staleHits
  if total = 0 then .ofNat 0
  else ((Double.ofNat c.hits.toNat).div (Double.ofNat total.toNat)).scale 100

/-- The hit rate with six decimals. -/
def hitRateText (c : Counters) : String := c.hitRate.fixed 6

end Counters

end LogQL.Cache
