import TransitSim.Calendar.Instant

/-!
# Wall clocks

A wall clock runs a fixed number of seconds ahead of universal time. It shows the minute of the
day, written on twelve hours as `h:mm AM` or `h:mm PM`.
-/

namespace TransitSim
namespace Calendar

/-- Seconds by which a wall clock is ahead, less than a day either way. -/
structure Offset where
  seconds : Int
  deriving DecidableEq, Repr

namespace Offset

def utc : Offset := ⟨0⟩

def ofSeconds? (seconds : Int) : Option Offset :=
  if seconds.natAbs < 86400 then some ⟨seconds⟩ else none

def ofMinutes? (minutes : Int) : Option Offset :=
  ofSeconds? (minutes * 60)

end Offset

def minuteOfDay (offset : Offset) (i : Instant) : Nat :=
  (((i.seconds + offset.seconds) % secondsPerDay) / 60).toNat

def twoDigits (n : Nat) : String :=
  (if n < 10 then "0" else "") ++ toString n

/-- A minute of the day on twelve hours, the hour without a leading zero. -/
def clockText (minute : Nat) : String :=
  let hour := minute / 60
  let shown := if hour % 12 = 0 then 12 else hour % 12
  toString shown ++ ":" ++ twoDigits (minute % 60) ++ (if hour < 12 then " AM" else " PM")

def clockTime (offset : Offset) (i : Instant) : String :=
  clockText (minuteOfDay offset i)

end Calendar
end TransitSim
