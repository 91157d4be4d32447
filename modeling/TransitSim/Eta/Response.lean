import TransitSim.Calendar.Stamp
import TransitSim.Eta.Snapshot
import TransitSim.Geo.Coordinate
import TransitSim.Json.Value

/-!
# Responses of a tracking service

A response lists vehicles, and for each the stops ahead. The first entry for a vehicle counts.
Records that lack a coordinate or a time are left out; whatever else is wrong with a response,
the answer is no estimates at all.
-/

namespace TransitSim
namespace Response

open Calendar

def descend? : List String → Json → Option Json
  | [], j => some j
  | key :: rest, j => (j.member? key).bind (descend? rest)

def time? : Json → Option Instant
  | .string s => readStamp? s
  | .number n => do
      let ms ← n.toInt?
      if ms < Nat.pow 2 63 then Instant.ofMillis? ms else none
  | _ => none

def status (record : Json) : Status :=
  if (record.member? "status").bind Json.text? = some "Reached" then .reached else .upcoming

def snapshot? (record : Json) : Option Snapshot := do
  let lat ← (← descend? ["stop", "coordinate", "lat"] record).float?
  let lon ← (← descend? ["stop", "coordinate", "lon"] record).float?
  let eta ← time? (← record.member? "eta")
  some
    { key := Coordinate.key ⟨lat, lon⟩
      name := (descend? ["stop", "name"] record).bind Json.text?
      eta
      delta := ((record.member? "delta").bind Json.float?).getD 0
      status := status record }

def isAbout (vehicle : String) (entry : Json) : Bool :=
  (entry.member? "vehicleNumber").bind Json.text? = some vehicle

def stops? (vehicle : String) (response : Json) : Option (List Json) := do
  let entry ← (← response.items?).find? (isAbout vehicle)
  (← descend? ["vehicleInfo", "upcomingStops"] entry).items?

def snapshots (vehicle : String) (response : Json) : List Snapshot :=
  ((stops? vehicle response).getD []).filterMap snapshot?

end Response
end TransitSim
