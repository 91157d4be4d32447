import TransitSim.Geo.Coordinate

/-!
# Stops
-/

namespace TransitSim

/-- A stop of a route, numbered from one in the order of the route. -/
structure Stop where
  coordinate : Coordinate
  name : String
  code : Option String
  sequence : Nat

namespace Stop

def key (s : Stop) : String :=
  s.coordinate.key

end Stop
end TransitSim
