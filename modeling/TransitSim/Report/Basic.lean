import TransitSim.Calendar.Stamp
import TransitSim.Config.Basic

/-!
# Position reports
-/

namespace TransitSim

structure Report where
  coordinate : Coordinate
  time : Calendar.Instant
  /-- Metres. -/
  accuracy : Float
  /-- Metres a second. -/
  speed : Float

namespace Report

def exactly (coordinate : Coordinate) (time : Calendar.Instant) (speed : Float) : Report :=
  ⟨coordinate, time, 0, speed⟩

def describe (driver merchant : String) (r : Report) : String :=
  "Driver " ++ driver ++ " (" ++ merchant ++ ") at " ++ Decimal.fixed 6 r.coordinate.lat ++ ", "
    ++ Decimal.fixed 6 r.coordinate.lon ++ " on " ++ Calendar.stampTextWithOffset r.time ++ " ("
    ++ Decimal.fixed 1 (Speed.kilometresPerHour r.speed) ++ " km/h)"

end Report
end TransitSim
