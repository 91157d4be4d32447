import TransitSim.Calendar.Offset
import TransitSim.Geo.Speed
import TransitSim.Route.Traversal
import TransitSim.Tick.Period

/-!
# Configuration

The settings of a simulation, their values where nothing else is said, and which of them can be
used.
-/

namespace TransitSim

structure Config where
  vehicleId : String
  routeCode : String
  driverId : String
  merchantId : String
  /-- Milliseconds between ticks on a route. -/
  routeInterval : Nat
  /-- Milliseconds between ticks of a recording. -/
  playbackInterval : Nat
  /-- Kilometres an hour on a route. -/
  routeSpeed : Float
  /-- Simulated seconds in a tick on a route. -/
  routeTimeStep : Float
  multiplier : Nat
  wrap : Wrap
  /-- Minutes by which the wall clock is ahead of universal time. -/
  offsetMinutes : Int

namespace Config

def standard : Config where
  vehicleId := "WB052366"
  routeCode := "EB12-U"
  driverId := "123"
  merchantId := "dev"
  routeInterval := 100
  playbackInterval := 2000
  routeSpeed := 120
  routeTimeStep := 0.1
  multiplier := 1
  wrap := .loop
  offsetMinutes := 0

def metresPerSecond (c : Config) : Float :=
  Speed.metresPerSecond c.routeSpeed

def step (c : Config) : Float :=
  c.metresPerSecond * c.routeTimeStep

def offset? (c : Config) : Option Calendar.Offset :=
  Calendar.Offset.ofMinutes? c.offsetMinutes

def isUsable (x : Float) : Bool :=
  x.isFinite && !(x < 0)

def validate (c : Config) : Except Error Unit := do
  if c.routeInterval = 0 ∨ c.playbackInterval = 0 then throw (.input .zeroInterval)
  let _ ← Period.checked (Period.ofMillis c.routeInterval) c.multiplier
  let _ ← Period.checked (Period.ofMillis c.playbackInterval) c.multiplier
  if !isUsable c.routeSpeed then throw (.input .badSpeed)
  if !isUsable c.routeTimeStep then throw (.input .badTimeStep)
  if c.offset?.isNone then throw (.input .badOffset)

/-- Whether two configurations agree in every setting; a setting that is no number agrees with
nothing. -/
def same (a b : Config) : Bool :=
  a.vehicleId == b.vehicleId && a.routeCode == b.routeCode && a.driverId == b.driverId
    && a.merchantId == b.merchantId && a.routeInterval == b.routeInterval
    && a.playbackInterval == b.playbackInterval && a.routeSpeed == b.routeSpeed
    && a.routeTimeStep == b.routeTimeStep && a.multiplier == b.multiplier && a.wrap == b.wrap
    && a.offsetMinutes == b.offsetMinutes

end Config
end TransitSim
