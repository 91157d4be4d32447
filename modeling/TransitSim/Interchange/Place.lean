import TransitSim.Json.Record
import TransitSim.Json.Writing
import TransitSim.Route.Stop
import TransitSim.Route.Traversal

/-!
# Places in JSON
-/

namespace TransitSim

open Json

namespace Coordinate

def toJson (c : Coordinate) : Json :=
  .object [("lat", .ofFloat c.lat), ("lon", .ofFloat c.lon)]

def ofRaw? (r : Raw) : Option Coordinate := do
  match ← r.slots? ["lat", "lon"] with
  | [lat, lon] => some ⟨← lat.required Raw.float?, ← lon.required Raw.float?⟩
  | _ => none

end Coordinate

def Json.ofText : Option String → Json
  | some s => .string s
  | none => .null

namespace Stop

def toJson (s : Stop) : Json :=
  .object
    [("coordinate", s.coordinate.toJson), ("name", .string s.name), ("code", .ofText s.code),
     ("sequence_index", .ofNat s.sequence)]

def ofRaw? (r : Raw) : Option Stop := do
  match ← r.slots? ["coordinate", "name", "code", "sequence_index"] with
  | [coordinate, name, code, sequence] =>
      some
        ⟨← coordinate.required Coordinate.ofRaw?, ← name.required Raw.text?,
          ← code.optional Raw.text?, ← sequence.required (Raw.natBelow? wordLimit)⟩
  | _ => none

end Stop

namespace Wrap

def name : Wrap → String
  | loop => "Loop"
  | hold => "Hold"

def named : List (String × Wrap) :=
  [("Loop", loop), ("Hold", hold)]

def toJson (w : Wrap) : Json :=
  .string w.name

def ofRaw? (r : Raw) : Option Wrap :=
  r.word? named

end Wrap
end TransitSim
