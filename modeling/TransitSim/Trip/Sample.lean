import TransitSim.Calendar.Instant
import TransitSim.Geo.Coordinate

/-!
# Samples of a trip
-/

namespace TransitSim

structure Sample where
  driver : String
  ride : String
  time : Calendar.Instant
  coordinate : Coordinate
  /-- Metres a second. -/
  speed : Float

end TransitSim
