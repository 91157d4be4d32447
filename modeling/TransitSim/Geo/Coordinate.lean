import TransitSim.Error

/-!
# Points on the earth

A point has a latitude and a longitude in degrees. Arithmetic on points works for any type of
numbers; a `Coordinate` has doubles. Which doubles are on the earth is checked where coordinates
are read, not by the type.
-/

namespace TransitSim

structure Point (N : Type) where
  lat : N
  lon : N
  deriving DecidableEq, Repr

namespace Point

variable {N : Type} [Add N] [Sub N] [Mul N]

/-- The point that divides the way from one point to another, in degrees. -/
def between (a b : Point N) (fraction : N) : Point N :=
  ⟨a.lat + (b.lat - a.lat) * fraction, a.lon + (b.lon - a.lon) * fraction⟩

end Point

abbrev Coordinate := Point Float

namespace Coordinate

def onEarth (c : Coordinate) : Bool :=
  -90 ≤ c.lat && c.lat ≤ 90 && -180 ≤ c.lon && c.lon ≤ 180

theorem onEarth_iff {c : Coordinate} :
    c.onEarth = true ↔ (-90 ≤ c.lat ∧ c.lat ≤ 90) ∧ -180 ≤ c.lon ∧ c.lon ≤ 180 := by
  simp [onEarth, and_assoc]

def checked (c : Coordinate) : Except Error Coordinate :=
  if c.onEarth then .ok c else .error (.offEarth c.lat c.lon)

def same (a b : Coordinate) : Bool :=
  a.lat == b.lat && a.lon == b.lon

/-- The text that tells stops apart: latitude and longitude in the shortest notation. -/
def key (c : Coordinate) : String :=
  Decimal.text c.lat ++ "-" ++ Decimal.text c.lon

end Coordinate
end TransitSim
