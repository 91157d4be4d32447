import TransitSim.Calendar.Date

/-!
# Instants

An instant is a second of universal time and a fraction in nanoseconds. A leap second is told as
the second before it with a fraction of one second or more.
-/

namespace TransitSim
namespace Calendar

/-- Seconds from 1970-01-01T00:00:00 and nanoseconds; the latter reach one second and more only
within a leap second. -/
structure Instant where
  seconds : Int
  nanos : Nat
  deriving DecidableEq, Repr

def nanosPerSecond : Nat := 1000000000

def secondsPerDay : Int := 86400

namespace Instant

/-!
# Range and order
-/

def firstSecond : Int := (Date.mk firstYear 1 1).toDays * secondsPerDay

def lastSecond : Int := (Date.mk lastYear 12 31).toDays * secondsPerDay + secondsPerDay - 1

/-- Instants within the years that can be told, with a leap second only at the end of a minute. -/
def Valid (i : Instant) : Prop :=
  firstSecond ≤ i.seconds ∧ i.seconds ≤ lastSecond ∧
    (i.nanos < nanosPerSecond ∨ (i.nanos < 2 * nanosPerSecond ∧ i.seconds % 60 = 59))

instance (i : Instant) : Decidable i.Valid := by
  unfold Valid
  infer_instance

def inRange? (i : Instant) : Option Instant :=
  if firstSecond ≤ i.seconds ∧ i.seconds ≤ lastSecond then some i else none

def notAfter (a b : Instant) : Bool :=
  a.seconds < b.seconds || (a.seconds == b.seconds && a.nanos ≤ b.nanos)

/-!
# Making and moving instants
-/

def ofMillis? (ms : Int) : Option Instant :=
  inRange? ⟨ms / 1000, (ms % 1000).toNat * 1000000⟩

def carry (seconds : Int) (nanos : Int) : Instant :=
  if nanos < 0 then ⟨seconds - 1, (nanos + nanosPerSecond).toNat⟩
  else if (nanosPerSecond : Int) ≤ nanos then ⟨seconds + 1, (nanos - nanosPerSecond).toNat⟩
  else ⟨seconds, nanos.toNat⟩

/-- Adds whole seconds and a fraction of the same sign. Within a leap second a small move stays
in it; a larger one leaves it first, forwards from its start and backwards from its end. -/
def shift (i : Instant) (seconds nanos : Int) : Instant :=
  let total := (i.nanos : Int) + nanos
  if i.nanos < nanosPerSecond then carry (i.seconds + seconds) total
  else if 0 < seconds ∨ (0 < nanos ∧ 2 * (nanosPerSecond : Int) ≤ total) then
    carry (i.seconds + seconds) (total - nanosPerSecond)
  else if seconds < 0 then
    carry (i.seconds + 1 + seconds) (total - nanosPerSecond)
  else ⟨i.seconds, total.toNat⟩

def addMillis? (i : Instant) (ms : Int) : Option Instant :=
  inRange? (i.shift (ms.tdiv 1000) (ms.tmod 1000 * 1000000))

end Instant
end Calendar
end TransitSim
