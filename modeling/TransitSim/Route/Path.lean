import TransitSim.Geo.Sphere

/-!
# Paths

A path is a list of at least two points with the lengths of the segments between neighbours. The
lengths may be of any type of numbers; for a `Route` they are doubles, measured on the sphere.
-/

namespace TransitSim

/-- Points, and the lengths of the segments between neighbouring points. -/
structure Path (N : Type) where
  points : List (Point N)
  lengths : List N
  points_length : points.length = lengths.length + 1
  lengths_pos : 0 < lengths.length

namespace Path

variable {N : Type}

def measured (distance : Point N → Point N → N) : List (Point N) → List N
  | a :: b :: rest => distance a b :: measured distance (b :: rest)
  | _ => []

theorem measured_length (distance : Point N → Point N → N) :
    ∀ points : List (Point N), (measured distance points).length = points.length - 1
  | [] => rfl
  | [_] => rfl
  | a :: b :: rest => by
      have ih := measured_length distance (b :: rest)
      simp only [measured, List.length_cons] at ih ⊢
      omega

def ofPoints? (distance : Point N → Point N → N) (points : List (Point N)) : Option (Path N) :=
  if h : 2 ≤ points.length then
    some
      { points
        lengths := measured distance points
        points_length := by rw [measured_length]; omega
        lengths_pos := by rw [measured_length]; omega }
  else none

def segmentCount (p : Path N) : Nat :=
  p.lengths.length

def total [Zero N] [Add N] (p : Path N) : N :=
  p.lengths.foldl (· + ·) 0

/-- The ends of a segment; both ends of the last one for a number beyond it. -/
def ends (p : Path N) (segment : Nat) : Point N × Point N :=
  let i := min segment (p.segmentCount - 1)
  have hi : i + 1 < p.points.length := by
    have h₁ := p.points_length
    have h₂ := p.lengths_pos
    have h₃ : i ≤ p.segmentCount - 1 := Nat.min_le_right ..
    simp only [segmentCount] at h₃
    omega
  (p.points[i], p.points[i + 1])

end Path

abbrev Route := Path Float

namespace Route

def ofPoints (points : List Coordinate) : Except Error Route :=
  match Path.ofPoints? Sphere.distance points with
  | some route => .ok route
  | none => .error (.route (.tooFewPoints points.length))

def heading (route : Route) (segment : Nat) : Float :=
  let (a, b) := route.ends segment
  Sphere.bearing a b

end Route
end TransitSim
