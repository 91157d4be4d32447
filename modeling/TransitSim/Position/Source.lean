import TransitSim.Config.Basic
import TransitSim.Trip.Player

/-!
# Where positions come from

A source of positions follows a route at a constant speed, or plays a recorded trip. It is chosen
once for a simulation.
-/

namespace TransitSim

inductive Mode where
  | route
  | playback
  deriving DecidableEq, Repr

namespace Mode

def name : Mode → String
  | route => "Route"
  | playback => "Playback"

def baseInterval (c : Config) : Mode → Nat
  | route => Period.ofMillis c.routeInterval
  | playback => Period.ofMillis c.playbackInterval

end Mode

/-- A position of the vehicle. Only recorded positions have a sample, and the last of them has no
heading. -/
structure Update where
  coordinate : Coordinate
  heading : Option Float
  /-- Metres a second. -/
  speed : Float
  sample : Option Nat
  recorded : Option Calendar.Instant

def Update.ofFrame (f : Frame) : Update where
  coordinate := f.sample.coordinate
  heading := f.heading
  speed := f.sample.speed
  sample := some f.index
  recorded := some f.sample.time

inductive Source where
  | route (follower : Follower) (speed step : Float)
  | playback (player : Player)

namespace Source

def along (route : Route) (wrap : Wrap) (speed seconds : Float) : Source :=
  .route (.new route wrap) speed (speed * seconds)

def configured (route : Route) (c : Config) : Source :=
  along route c.wrap c.metresPerSecond c.routeTimeStep

def mode : Source → Mode
  | route .. => .route
  | playback _ => .playback

def next : Source → Except Error (Update × Source)
  | route follower speed step =>
      let moved := follower.advance step
      .ok (⟨moved.place, some moved.heading, speed, none, none⟩, .route moved speed step)
  | playback player => do
      let (frame, player) ← player.advance
      .ok (.ofFrame frame, .playback player)

def seek (s : Source) (index : Nat) : Except Error (Update × Source) :=
  match s with
  | route .. => .error (.input .seekOnRoute)
  | playback player => do
      let (frame, player) ← player.seek index
      .ok (.ofFrame frame, .playback player)

def reset : Source → Source
  | route follower speed step => .route follower.reset speed step
  | playback player => .playback player.reset

def covered? : Source → Option Float
  | route follower .. => some follower.state.covered
  | playback _ => none

def cursor? : Source → Option Nat
  | route .. => none
  | playback player => some player.cursor

end Source
end TransitSim
