import LogQL.Time

/-!
# How long cached data stays fresh

Data is fresh while its age is below the lifetime. A clock that was set back gives data the age
zero, so it never makes data stale.
-/

namespace LogQL

/-- How long data stays fresh. -/
structure Lifetime where
  millis : Millis
  deriving DecidableEq, Repr, Inhabited

namespace Lifetime

/-- Five minutes. -/
def default : Lifetime := ⟨300000⟩

/-- A lifetime in seconds; one too long for the clock is as long as the clock runs. -/
def ofSeconds (n : UInt64) : Lifetime := ⟨saturate (n.toNat * 1000)⟩

/-- A lifetime in minutes. -/
def ofMinutes (n : UInt64) : Lifetime := ofSeconds (saturate (n.toNat * 60))

/-- Whether data stored at `since` is fresh at `now`. -/
def covers (l : Lifetime) (since now : Millis) : Bool := elapsed since now < l.millis.toNat

end Lifetime

end LogQL
