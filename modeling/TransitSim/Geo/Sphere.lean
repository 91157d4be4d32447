import TransitSim.Geo.Coordinate

/-!
# The sphere

Distances and directions on a spherical earth: the length of the great circle between two points,
and the initial direction from one to the other.
-/

namespace TransitSim
namespace Sphere

def radius : Float := 6371000

def pi : Float := 3.14159265358979323846

def radians (degrees : Float) : Float :=
  degrees * (pi / 180)

def degrees (radians : Float) : Float :=
  radians * (180 / pi)

/-- The length in metres of the great circle between two points, by the haversine formula. -/
def distance (a b : Coordinate) : Float :=
  let sinLat := Float.sin (radians (b.lat - a.lat) / 2)
  let sinLon := Float.sin (radians (b.lon - a.lon) / 2)
  let h := sinLat * sinLat
    + Float.cos (radians a.lat) * Float.cos (radians b.lat) * (sinLon * sinLon)
  radius * (2 * Float.atan2 h.sqrt (1 - h).sqrt)

def normalized (angle : Float) : Float :=
  let turned := if angle < 0 then angle + 360 else angle
  if turned ≥ 360 then 0 else turned

def bearing (a b : Coordinate) : Float :=
  if a.same b then 0
  else
    let lat₁ := radians a.lat
    let lat₂ := radians b.lat
    let turn := radians (b.lon - a.lon)
    let y := Float.sin turn * Float.cos lat₂
    let x := Float.cos lat₁ * Float.sin lat₂ - Float.sin lat₁ * Float.cos lat₂ * Float.cos turn
    normalized (degrees (Float.atan2 y x))

end Sphere
end TransitSim
