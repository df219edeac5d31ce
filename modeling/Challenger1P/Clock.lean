/-!
# The clock

How fast the machine runs: a rate in cycles a second, and the length of a tick, the slice of time
after which the emulator looks at the outside world again. A tick may spend `budget` cycles.
-/

namespace Challenger1P

structure Clock where
  rateHz : UInt64 := 1000000
  /-- The length of a tick in nanoseconds. -/
  tickNanos : Nat := 10000000
  deriving DecidableEq, Repr, Inhabited

namespace Clock

/-- Nanoseconds in a second. -/
def second : Nat := 1000000000

/-- The shortest pause between ticks, in nanoseconds. -/
def shortestPause : Nat := 1000000

/-- How many values 128 bits have. -/
def wideSize : Nat := 0x100000000000000000000000000000000

/-- The cycles that one tick may spend. The product is taken in 128 bits, and there is no answer
where it has no room in them; the quotient keeps its low 64 bits. -/
def budget (c : Clock) : Option UInt64 :=
  let product := c.rateHz.toNat * c.tickNanos
  if product < wideSize then some (UInt64.ofNat (product / second)) else none

/-- How long to pause after a tick that took `elapsed` nanoseconds: the rest of the tick, but never
less than the shortest pause, so a slow tick is not made up for. -/
def pauseAfter (c : Clock) (elapsed : Nat) : Nat := max (c.tickNanos - elapsed) shortestPause

end Clock

end Challenger1P
