import TransitSim.GeoJson.Document
import TransitSim.Journal
import TransitSim.Route.Path
import TransitSim.Route.Stop
import TransitSim.Text.Utf8

/-!
# Routes in GeoJSON

The first line of a document is the route, and every point is a stop, numbered in order. Positions
outside of these are not looked at.
-/

namespace TransitSim
namespace Route

open GeoJson

structure Sketch where
  line : Option (List Coordinate)
  stops : List Stop

def coordinate (p : Position) : Except Error Coordinate :=
  Coordinate.checked ⟨p.lat, p.lon⟩

/-- A property as text: a string as it is, any other value but `null` in its compact form. -/
def propertyText? (f : Feature) (name : String) : Option String :=
  match f.properties.lookup name with
  | none | some .null => none
  | some (.string s) => some s
  | some j => some j.compactText

def stop (f : Feature) (p : Position) (sequence : Nat) : Except Error Stop := do
  let coordinate ← coordinate p
  .ok
    { coordinate
      name := (propertyText? f "Stop Name").getD ("Stop " ++ toString sequence)
      code := propertyText? f "Stop Code"
      sequence }

def Sketch.add (s : Sketch) (f : Feature) : Except Error Sketch :=
  match f.geometry, s.line with
  | some (.lineString positions), none => do
      let points ← positions.mapM coordinate
      .ok { s with line := some points }
  | some (.point p), _ => do
      let stop ← stop f p (s.stops.length + 1)
      .ok { s with stops := s.stops ++ [stop] }
  | _, _ => .ok s

def Sketch.ofFeatures (fs : List Feature) : Except Error Sketch :=
  fs.foldlM Sketch.add ⟨none, []⟩

def noStops : String :=
  "Route has no stop features, ETA tracking will have nothing to match"

/-- The route and the stops of features, and what is to be said about them. -/
def ofFeatures (fs : List Feature) : Journal × Except Error (Route × List Stop) :=
  match Sketch.ofFeatures fs with
  | .error e => ([], .error e)
  | .ok ⟨none, _⟩ => ([], .error (.route .noLine))
  | .ok ⟨some points, stops⟩ =>
      (if stops.isEmpty then Journal.warn noStops else [],
        (Route.ofPoints points).map fun route => (route, stops))

def featuresOfText (s : String) : Except Error (List Feature) :=
  match (Document.ofText s).bind Document.features with
  | .ok fs => .ok fs
  | .error fault => .error (.routeMalformed fault)

def ofText (s : String) : Journal × Except Error (Route × List Stop) :=
  match featuresOfText s with
  | .ok fs => ofFeatures fs
  | .error e => ([], .error e)

def ofFile (octets : Option (List UInt8)) : Journal × Except Error (Route × List Stop) :=
  match octets.bind Utf8.text? with
  | some s => ofText s
  | none => ([], .error .routeUnreadable)

end Route
end TransitSim
