import TransitSim.Calendar.Instant
import TransitSim.Tick.Duration

/-!
# Clocks

A clock counts nanoseconds from the moment at which it was set up. Whoever waits is woken at whole
milliseconds only, at the first one that is not before the time waited for.
-/

namespace TransitSim

/-- A clock: the instant at which it was set up, and the nanoseconds since then. -/
structure Clock where
  epoch : Calendar.Instant
  now : Nat
  deriving DecidableEq, Repr

namespace Clock

def instant (c : Clock) : Calendar.Instant :=
  let nanos := c.epoch.nanos + c.now
  ⟨c.epoch.seconds + (nanos / Calendar.nanosPerSecond : Nat), nanos % Calendar.nanosPerSecond⟩

/-- The first whole millisecond that is not before a time. -/
def wake (time : Nat) : Nat :=
  (time + Duration.millisecond - 1) / Duration.millisecond * Duration.millisecond

def forwardTo (c : Clock) (time : Nat) : Clock :=
  { c with now := max c.now time }

theorem le_wake (time : Nat) : time ≤ wake time := by
  simp only [wake, Duration.millisecond]
  omega

theorem wake_lt (time : Nat) : wake time < time + Duration.millisecond := by
  simp only [wake, Duration.millisecond]
  omega

end Clock
end TransitSim
