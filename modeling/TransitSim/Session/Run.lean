import TransitSim.Session.Simulation

/-!
# Runs

A run takes ticks until a recording ends, a limit is reached or somebody ends it. It reacts to one
event at a time: a tick, an answer, a piece of work that is done, the timer, the passing of time.
Events may come in any order that the state allows; `Run.advance` is the order in which they come
when the work is done in turn and time passes only while everybody waits.
-/

namespace TransitSim

inductive Outcome where
  | playbackComplete
  | tickLimit
  | interrupted
  deriving DecidableEq, Repr

def Outcome.name : Outcome → String
  | playbackComplete => "PlaybackComplete"
  | tickLimit => "TickLimit"
  | interrupted => "Interrupted"

/-- A run: how many ticks it has taken, how many it may take, and when it is ended. -/
structure Run where
  simulation : Simulation
  taken : Nat
  limit : Option Nat
  deadline : Option Nat
  /-- How many ticks and answers have been taken since work was done. -/
  turns : Nat

inductive Event where
  | shutdown
  | tick
  | answer
  | job (index : Nat)
  | fire
  | pass (time : Nat)

inductive Turn where
  | goes (r : Run)
  | ends (result : Except Error Outcome) (m : Simulation)
  | fails

namespace Run

/-!
# Reactions
-/

def isFull (r : Run) : Bool :=
  match r.limit with
  | some limit => limit ≤ r.taken
  | none => false

def onTick (r : Run) : Option Turn :=
  match r.simulation.session.scheduler.take? with
  | none => none
  | some (t, scheduler) =>
      let current := scheduler.isCurrent t
      let m := { r.simulation with session := { r.simulation.session with scheduler } }
      if !current then some (.goes { r with simulation := m, turns := r.turns + 1 })
      else match m.tick with
        | (.ok _, m) =>
            let r := { r with simulation := m, taken := r.taken + 1, turns := r.turns + 1 }
            some (if r.isFull then .ends (.ok .tickLimit) m else .goes r)
        | (.error e, m) =>
            some (.ends (if e.isPlaybackComplete then .ok .playbackComplete else .error e) m)

def onAnswer (r : Run) : Option Turn :=
  if r.simulation.session.answers.isEmpty then none
  else match r.simulation.takeAnswer with
    | some m => some (.goes { r with simulation := m, turns := r.turns + 1 })
    | none => some .fails

def onJob (r : Run) (index : Nat) : Option Turn :=
  (r.simulation.session.jobs[index]?).map fun job =>
    let session :=
      { r.simulation.session with jobs := r.simulation.session.jobs.eraseIdx index }
    .goes { r with simulation := { r.simulation with session }.perform job }

def onFire (r : Run) : Option Turn :=
  match r.simulation.session.scheduler.timer with
  | none => none
  | some t =>
      if t.due ≤ r.simulation.clock.now then
        let session :=
          { r.simulation.session with scheduler := r.simulation.session.scheduler.fire }
        some (.goes { r with simulation := { r.simulation with session } })
      else none

def onPass (r : Run) (time : Nat) : Run :=
  { r with simulation := r.simulation.passTo time, turns := 0 }

/-- What an event leads to; `none` where it cannot happen. -/
def react (r : Run) : Event → Option Turn
  | .shutdown => some (.ends (.ok .interrupted) r.simulation)
  | .tick => r.onTick
  | .answer => r.onAnswer
  | .job index => r.onJob index
  | .fire => r.onFire
  | .pass time => some (.goes (r.onPass time))

/-!
# One order of events
-/

inductive Step where
  | turn (t : Turn)
  | wait (time : Nat)
  | stuck

def earlier? : Option Nat → Option Nat → Option Nat
  | some a, some b => some (min a b)
  | some a, none => some a
  | none, b => b

def isOver (r : Run) : Bool :=
  match r.deadline with
  | some deadline => deadline ≤ r.simulation.clock.now
  | none => false

def patience : Nat := 128

def work (r : Run) : Run :=
  { r with simulation := r.simulation.work, turns := 0 }

def take? (r : Run) : Option Turn :=
  r.onTick.or r.onAnswer

def rest (r : Run) : Step :=
  if r.simulation.hasWork then .turn (.goes r.work)
  else match earlier? r.simulation.session.scheduler.nextWake? r.deadline with
    | some time => .wait time
    | none => .stuck

/-- The end of a run comes before ticks, ticks before answers, and answers before work, unless work
has waited for too many of them. Time passes when there is nothing of these. -/
def advance (r : Run) : Step :=
  if r.isOver then .turn (.ends (.ok .interrupted) r.simulation)
  else match r.take? with
    | some t => .turn (if r.turns < patience then t else .goes r.work)
    | none => r.rest

inductive Ending where
  | ended (result : Except Error Outcome) (m : Simulation)
  | failed
  | endless

def goOn : Nat → Run → Ending
  | 0, _ => .endless
  | fuel + 1, r =>
      match r.advance with
      | .turn (.goes r) => goOn fuel r
      | .turn (.ends result m) => .ended result m.stop
      | .turn .fails => .failed
      | .wait time => goOn fuel (r.onPass time)
      | .stuck => .endless

def tickBound? (r : Run) : Option Nat :=
  match r.limit, r.simulation.session.source, r.deadline with
  | some limit, _, _ => some (limit + 1)
  | none, .playback player, _ => some (player.length - player.cursor + 1)
  | none, .route .., some deadline => some (r.simulation.session.scheduler.dueBy deadline + 1)
  | none, .route .., none => none

/-- How many steps a run takes at most. A tick costs itself, a wait and two turns of the timer, the
work that it leaves, an answer, and a turn for work after each of tick and answer; answers and work
that wait already cost their share of this. -/
def stepBound? (r : Run) : Option Nat :=
  let s := r.simulation.session
  r.tickBound?.map fun ticks =>
    9 * (ticks + s.scheduler.queue.length + 1) + 2 * s.answers.length + 3 * s.jobs.length

def finish (r : Run) : Ending :=
  match r.stepBound? with
  | some fuel => goOn fuel r
  | none => .endless

end Run

namespace Simulation

def beginRun (m : Simulation) (limit deadline : Option Nat) : Except Error Unit × Run :=
  if m.session.isRunning then (.ok (), ⟨m, 0, limit, deadline, 0⟩)
  else
    let (result, m) := m.start
    (result, ⟨m, 0, limit, deadline, 0⟩)

/-- Runs until a recording ends, a number of ticks has been taken, or a time has come. -/
def run (m : Simulation) (limit deadline : Option Nat) : Run.Ending :=
  match m.beginRun limit deadline with
  | (.ok (), r) => r.finish
  | (.error e, r) => .ended (.error e) r.simulation

end Simulation
end TransitSim
