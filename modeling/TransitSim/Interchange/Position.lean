import TransitSim.Interchange.Place
import TransitSim.Interchange.Time
import TransitSim.Report.Basic
import TransitSim.Trip.Sample

/-!
# Samples and reports in JSON
-/

namespace TransitSim

open Json Calendar

namespace Sample

def toJson (s : Sample) : Json :=
  .object
    [("driver_id", .string s.driver), ("ride_id", .string s.ride), ("timestamp", s.time.toJson),
     ("coordinate", s.coordinate.toJson), ("speed_mps", .ofFloat s.speed)]

def ofRaw? (r : Raw) : Option Sample := do
  match ← r.slots? ["driver_id", "ride_id", "timestamp", "coordinate", "speed_mps"] with
  | [driver, ride, time, coordinate, speed] =>
      some
        ⟨← driver.required Raw.text?, ← ride.required Raw.text?, ← time.required Instant.ofRaw?,
          ← coordinate.required Coordinate.ofRaw?, ← speed.required Raw.float?⟩
  | _ => none

end Sample

namespace Report

def toJson (r : Report) : Json :=
  .object
    [("pt", r.coordinate.toJson), ("ts", r.time.toJson), ("acc", .ofFloat r.accuracy),
     ("v", .ofFloat r.speed)]

def ofRaw? (r : Raw) : Option Report := do
  match ← r.slots? ["pt", "ts", "acc", "v"] with
  | [coordinate, time, accuracy, speed] =>
      some
        ⟨← coordinate.required Coordinate.ofRaw?, ← time.required Instant.ofRaw?,
          ← accuracy.required Raw.float?, ← speed.required Raw.float?⟩
  | _ => none

def line (r : Report) : String :=
  r.toJson.compactText ++ "\n"

end Report
end TransitSim
