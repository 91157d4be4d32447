import TransitSim.Calendar.Instant
import TransitSim.Decimal.Binary64

/-!
# Arrival estimates

A snapshot is what a service says about the arrival at one stop: a time and a correction to it in
seconds.
-/

namespace TransitSim

open Calendar

inductive Status where
  | upcoming
  | reached
  deriving DecidableEq, Repr

structure Snapshot where
  key : String
  name : Option String
  eta : Instant
  delta : Float
  status : Status

namespace Snapshot

def label (s : Snapshot) : String :=
  s.name.getD s.key

/-- A correction in whole milliseconds, a half going away from zero; corrections that are not
finite are none. -/
def correction (delta : Float) : Int :=
  if delta.isFinite then
    match Binary64.nearestInt? (delta * 1000) with
    | some ms => ms
    | none => if delta < 0 then -Nat.pow 2 63 else Nat.pow 2 63 - 1
  else 0

/-- The corrected time, unless it lies beyond the calendar. -/
def final? (s : Snapshot) : Option Instant :=
  s.eta.addMillis? (correction s.delta)

end Snapshot
end TransitSim
