import TransitSim.Route.Path

/-!
# Moving along a path

A traversal remembers how far it has come, in which segment it is, and how much of that segment
lies behind. At the end of the path it starts over or stays there, as its wrap policy says.
Nothing here depends on the type of the numbers.
-/

namespace TransitSim

inductive Wrap where
  | loop
  | hold
  deriving DecidableEq, Repr

structure Traversal (N : Type) where
  covered : N
  segment : Nat
  fraction : N
  deriving DecidableEq, Repr

namespace Traversal

variable {N : Type} [Zero N] [One N] [Add N] [Sub N] [Mul N] [Div N] [LT N] [DecidableLT N]

def start : Traversal N := ⟨0, 0, 0⟩

def parked (p : Path N) : Traversal N := ⟨p.total, p.segmentCount - 1, 1⟩

/-- The first segment that ends beyond a distance, and the fraction of it that is covered there;
`before` is the length of what precedes the segments, `index` the number of the first. -/
def locate? (covered before : N) (index : Nat) : List N → Option (Nat × N)
  | [] => none
  | length :: rest =>
      if covered < before + length then some (index, (covered - before) / length)
      else locate? covered (before + length) (index + 1) rest

/-- A step forwards; a step that is not a number or goes backwards is none. -/
def forward : Option N → N
  | some step => if step < 0 then 0 else step
  | none => 0

/-- The state after a step. What goes beyond the end is dropped. -/
def advance (p : Path N) (wrap : Wrap) (s : Traversal N) (step : Option N) : Traversal N :=
  let covered := s.covered + forward step
  match locate? covered 0 0 p.lengths with
  | some (segment, fraction) => ⟨covered, segment, fraction⟩
  | none => match wrap with
      | .loop => start
      | .hold => parked p

def place (p : Path N) (s : Traversal N) : Point N :=
  let (a, b) := p.ends s.segment
  a.between b s.fraction

end Traversal

/-!
# Following a route
-/

def finite? (x : Float) : Option Float :=
  if x.isFinite then some x else none

structure Follower where
  route : Route
  wrap : Wrap
  state : Traversal Float

namespace Follower

def new (route : Route) (wrap : Wrap) : Follower :=
  ⟨route, wrap, .start⟩

/-- Moves forwards by some metres. -/
def advance (f : Follower) (metres : Float) : Follower :=
  { f with state := f.state.advance f.route f.wrap (finite? metres) }

def reset (f : Follower) : Follower :=
  { f with state := .start }

def place (f : Follower) : Coordinate :=
  f.state.place f.route

def heading (f : Follower) : Float :=
  f.route.heading f.state.segment

end Follower
end TransitSim
