/-!
# Time

Points in time and stretches of it are counted in milliseconds, in words of 64 bits. A stretch
that does not fit is as long as the greatest word, and one that would run backwards is empty.
-/

namespace LogQL

/-- A point in time, or a stretch of it, in milliseconds. -/
abbrev Millis := UInt64

/-- The greatest 64-bit word. -/
def wordMax : Nat := 0xFFFFFFFFFFFFFFFF

/-- The word nearest to a number. -/
def saturate (n : Nat) : UInt64 := (min n wordMax).toUInt64

/-- The whole milliseconds in a stretch of nanoseconds. -/
def Millis.ofNanos (n : Nat) : Millis := saturate (n / 1000000)

/-- The time from `since` to `now`, none if that is backwards. -/
def elapsed (since now : Millis) : Nat := now.toNat - since.toNat

end LogQL
