import TransitSim.Proofs.Route.Odometer

/-!
# The segment is always there

A scan for a distance stops at a segment of the path or at none, and either end of a path is a
segment of it. Nothing else is needed for the two points between which a movement is to be among
those of its path. In particular nothing is needed of the numbers: lengths and steps may be of any
size or no numbers at all, and comparisons may come out in any way.
-/

namespace TransitSim

inductive Move (S : Type) where
  | step (size : S)
  | reset

namespace Traversal

variable {N : Type}

/-- The segment of a movement is one of as many as there are points but one, and the points at both
its ends are among those given. -/
structure IsOn (s : Traversal N) (p : Path N) (points : List (Point N)) : Prop where
  count_pos : 0 < p.segmentCount
  count : p.segmentCount = points.length - 1
  segment_lt : s.segment < p.segmentCount
  first : points[s.segment]? = some (p.ends s.segment).1
  last : points[s.segment + 1]? = some (p.ends s.segment).2

theorem isOn_of_segment_lt {distance : Point N → Point N → N} {points : List (Point N)} {p : Path N}
    (hp : Path.ofPoints? distance points = some p) {s : Traversal N}
    (hs : s.segment < p.segmentCount) : s.IsOn p points := by
  have hpoints : p.points = points := by
    unfold Path.ofPoints? at hp
    split at hp
    case isTrue =>
      cases hp
      rfl
    case isFalse => cases hp
  have hlength := p.points_length
  rcases Path.exists_ends hs with ⟨a, b, ha, hb, hends⟩
  rw [hpoints] at hlength ha hb
  constructor
  case count_pos => exact p.lengths_pos
  case count =>
    rw [hlength]
    rfl
  case segment_lt => exact hs
  case first => rw [ha, hends]
  case last => rw [hb, hends]

theorem segment_start_lt [Zero N] (p : Path N) : (start : Traversal N).segment < p.segmentCount :=
  p.lengths_pos

theorem segment_atEnd_lt [Zero N] [One N] [Add N] (p : Path N) (wrap : Wrap) :
    (atEnd p wrap).segment < p.segmentCount := by
  cases wrap with
  | loop => exact segment_start_lt p
  | hold => exact Nat.sub_lt p.lengths_pos Nat.one_pos

/-!
# What the scan finds
-/

section
variable [Add N] [Sub N] [Div N] [LT N] [DecidableLT N]

theorem lt_of_locate? {covered before : N} {index : Nat} {lengths : List N} {i : Nat} {fraction : N}
    (h : locate? covered before index lengths = some (i, fraction)) :
    i < index + lengths.length := by
  induction lengths generalizing before index with
  | nil => cases h
  | cons length rest ih =>
      rw [List.length_cons]
      rw [locate?] at h
      split at h
      case isTrue =>
        cases h
        omega
      case isFalse =>
        have hrest := ih h
        omega

end

/-!
# Moves
-/

variable [Zero N] [One N] [Add N] [Sub N] [Div N] [LT N] [DecidableLT N]

def move (p : Path N) (wrap : Wrap) (s : Traversal N) : Move (Option N) → Traversal N
  | .step size => s.advance p wrap size
  | .reset => start

def moveAll (p : Path N) (wrap : Wrap) (moves : List (Move (Option N))) : Traversal N :=
  moves.foldl (move p wrap) start

theorem segment_advance_lt (p : Path N) (wrap : Wrap) (s : Traversal N) (size : Option N) :
    (s.advance p wrap size).segment < p.segmentCount := by
  cases hfound : locate? (s.covered + forward size) 0 0 p.lengths with
  | some found =>
      have hlt := lt_of_locate? hfound
      rw [Nat.zero_add] at hlt
      rw [advance_of_locate? hfound]
      exact hlt
  | none =>
      rw [advance_of_wraps hfound]
      exact segment_atEnd_lt p wrap

theorem segment_move_lt (p : Path N) (wrap : Wrap) (s : Traversal N) (m : Move (Option N)) :
    (s.move p wrap m).segment < p.segmentCount := by
  cases m with
  | step size => exact segment_advance_lt p wrap s size
  | reset => exact segment_start_lt p

theorem segment_moveAll_lt (p : Path N) (wrap : Wrap) (moves : List (Move (Option N))) :
    (moveAll p wrap moves).segment < p.segmentCount := by
  unfold moveAll
  induction moves using List.reverseRecOn with
  | nil => exact segment_start_lt p
  | append_singleton moves m =>
      rw [List.foldl_append]
      exact segment_move_lt p wrap _ m

end Traversal

namespace Follower

def move (f : Follower) : Move Float → Follower
  | .step metres => f.advance metres
  | .reset => f.reset

def moveAll (f : Follower) (moves : List (Move Float)) : Follower :=
  moves.foldl move f

def sized : Move Float → Move (Option Float)
  | .step metres => .step (finite? metres)
  | .reset => .reset

theorem moveAll_new (route : Route) (wrap : Wrap) (moves : List (Move Float)) :
    (new route wrap).moveAll moves =
      { new route wrap with state := Traversal.moveAll route wrap (moves.map sized) } := by
  unfold moveAll Traversal.moveAll
  induction moves using List.reverseRecOn with
  | nil => rfl
  | append_singleton moves m ih =>
      rw [List.foldl_append, ih, List.map_append, List.foldl_append]
      cases m <;> rfl

end Follower

/-- On a path along any points, measured in any way with any numbers, a movement is between two of
the points after any moves, whatever the policy at the end. So is a follower on a route, whatever
doubles its points and its steps are. -/
theorem Follower.stays_on_route :
    (∀ {N : Type} [Zero N] [One N] [Add N] [Sub N] [Div N] [LT N] [DecidableLT N]
        (distance : Point N → Point N → N) (points : List (Point N)) (p : Path N),
      Path.ofPoints? distance points = some p → ∀ wrap moves,
        (Traversal.moveAll p wrap moves).IsOn p points) ∧
      ∀ (points : List Coordinate) (route : Route), Route.ofPoints points = .ok route →
        ∀ wrap moves, ((new route wrap).moveAll moves).route = route ∧
          ((new route wrap).moveAll moves).state.IsOn route points := by
  constructor
  · intro N _ _ _ _ _ _ _ distance points p hp wrap moves
    exact Traversal.isOn_of_segment_lt hp (Traversal.segment_moveAll_lt p wrap moves)
  · intro points route hroute wrap moves
    have hp : Path.ofPoints? Sphere.distance points = some route := by
      unfold Route.ofPoints at hroute
      split at hroute
      case h_1 hp =>
        cases hroute
        exact hp
      case h_2 => cases hroute
    rw [moveAll_new]
    constructor
    · rfl
    · exact Traversal.isOn_of_segment_lt hp (Traversal.segment_moveAll_lt route wrap _)

theorem Follower.stays_on_route_nowhere :
    (exists route, Route.ofPoints [⟨0 / 0, 0⟩, ⟨1 / 0, 0 / 0⟩, ⟨0, -1 / 0⟩] = .ok route ∧
      ((new route .hold).moveAll
        [.step (0 / 0), .step (-1), .step (1 / 0), .reset, .step 1e308, .step 1e308]).state.IsOn
          route [⟨0 / 0, 0⟩, ⟨1 / 0, 0 / 0⟩, ⟨0, -1 / 0⟩]) ∧
      exists p, Path.ofPoints? (fun _ _ => (-1 : Int)) [⟨0, 0⟩, ⟨0, 1⟩] = some p ∧
        (Traversal.moveAll p .loop [.step (some 5), .step none, .reset]).IsOn p
          [⟨0, 0⟩, ⟨0, 1⟩] := by
  rcases stays_on_route with ⟨hpath, hroute⟩
  constructor
  · exact ⟨_, rfl, (hroute _ _ rfl .hold _).2⟩
  · exact ⟨_, rfl, hpath _ _ _ rfl .loop _⟩

end TransitSim
