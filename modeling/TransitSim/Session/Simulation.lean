import TransitSim.Eta.Feed
import TransitSim.Report.Sink
import TransitSim.Session.Basic

/-!
# Simulations

A simulation is a session with its surroundings: a clock, a receiver of reports, a source of
estimates, and a journal. The work that a session leaves is done while somebody waits.
-/

namespace TransitSim

structure Simulation where
  session : Session
  clock : Clock
  sink : Sink
  feed : Feed
  journal : Journal

namespace Simulation

def note (m : Simulation) (lines : Journal) : Simulation :=
  { m with journal := m.journal ++ lines }

/-!
# What a user does
-/

def tick (m : Simulation) : Except Error Update × Simulation :=
  let (result, session, lines) := m.session.tick m.clock.instant
  (result, { m with session }.note lines)

def seek (m : Simulation) (index : Nat) : Except Error Update × Simulation :=
  match m.session.seek m.clock.instant index with
  | .ok (update, session) => (.ok update, { m with session })
  | .error e => (.error e, m)

def start (m : Simulation) : Except Error Unit × Simulation :=
  match m.session.start m.clock.now with
  | (.ok session, lines) => (.ok (), { m with session }.note lines)
  | (.error e, lines) => (.error e, m.note lines)

def stop (m : Simulation) : Simulation :=
  let (session, lines) := m.session.stop
  { m with session }.note lines

def setMultiplier (m : Simulation) (multiplier : Nat) : Except Error Unit × Simulation :=
  match m.session.setMultiplier m.clock.now multiplier with
  | .ok session => (.ok (), { m with session })
  | .error e => (.error e, m)

def reset (m : Simulation) : Simulation :=
  let (session, lines) := m.session.reset
  { m with session }.note lines

def observe (m : Simulation) (snapshots : List Snapshot) (observed : Calendar.Instant) :
    Option Simulation :=
  (m.session.observe snapshots observed).map fun (session, lines) => { m with session }.note lines

/-!
# Work
-/

/-- The turn of the timer. If it has more to do than one turn allows, it waits for another one. -/
def ring (m : Simulation) : Simulation :=
  let s := m.session
  let jobs := if Scheduler.burst ≤ s.scheduler.dueBy m.clock.now then s.jobs ++ [.alarm] else s.jobs
  { m with session := { s with scheduler := s.scheduler.fireBurst m.clock.now, jobs } }

def perform (m : Simulation) : Job → Simulation
  | .alarm => m.ring
  | .void => m
  | .report r =>
      match m.sink.report r with
      | .ok (sink, lines) => { m with sink }.note lines
      | .error e => m.note (Journal.warn ("Position report failed: " ++ e.message))
  | .fetch route =>
      let (result, feed) := m.feed.fetch route
      let answers := m.session.answers ++ [⟨m.clock.instant, result⟩]
      { m with feed, session := { m.session with answers } }

def performSome (m : Simulation) (count : Nat) : Simulation :=
  let rest := { m with session := { m.session with jobs := m.session.jobs.drop count } }
  (m.session.jobs.take count).foldl perform rest

def batch : Nat := 61

def work (m : Simulation) : Simulation :=
  m.performSome batch

def hasWork (m : Simulation) : Bool :=
  !m.session.jobs.isEmpty

def isRinging (m : Simulation) : Bool :=
  !m.session.jobs.any Job.isAlarm &&
    match m.session.scheduler.nextWake? with
    | some time => time ≤ m.clock.now
    | none => false

def passTo (m : Simulation) (time : Nat) : Simulation :=
  let m := { m with clock := m.clock.forwardTo time }
  if m.isRinging then { m with session := { m.session with jobs := m.session.jobs ++ [.alarm] } }
  else m

def takeAnswer (m : Simulation) : Option Simulation :=
  match m.session.answers with
  | [] => some m
  | a :: rest =>
      (({ m.session with answers := rest } : Session).apply a).map fun (session, lines) =>
        { m with session }.note lines

def takeAnswers : Nat → Simulation → Option Simulation
  | 0, m => some m
  | count + 1, m => (m.takeAnswer).bind (takeAnswers count)

def takeAll (m : Simulation) : Option Simulation :=
  takeAnswers m.session.answers.length m

/-!
# Waiting
-/

/-- Lets some milliseconds pass. All work is done, and ticks are left in the queue. -/
def sleep (m : Simulation) (ms : Nat) : Simulation :=
  if ms = 0 then m
  else
    let work := m.session.jobs.filter Job.isOutward
    let m := work.foldl perform { m with session := { m.session with jobs := [] } }
    let (scheduler, now) := m.session.scheduler.sleep m.clock.now ms
    { m with session := { m.session with scheduler } }.passTo now

def settleRounds : Nat → Simulation → Option Simulation
  | 0, m => m.takeAll
  | rounds + 1, m => do
      let m ← m.takeAll
      if m.session.jobs.any Job.isOutward then settleRounds rounds m.work else some m

/-- Waits until all reports are made and all answers are taken. -/
def settle (m : Simulation) : Option Simulation :=
  settleRounds m.session.jobs.length m

end Simulation
end TransitSim
