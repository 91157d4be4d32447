import TransitSim.Eta.Board
import TransitSim.Position.Source
import TransitSim.Report.Basic
import TransitSim.Route.Stop
import TransitSim.Tick.Scheduler

/-!
# Sessions

A session is one simulated vehicle: where its positions come from, the timer of its ticks, and
what is known of the arrival at stops. A tick takes the next position; to report it and to ask for
new estimates is work left for later. Answers wait until the session takes them.
-/

namespace TransitSim

inductive Job where
  | report (r : Report)
  | fetch (route : String)
  | alarm
  /-- Work that has been given up and only keeps its place in the line. -/
  | void

namespace Job

def isOutward : Job → Bool
  | report _ | fetch _ => true
  | alarm | void => false

def isAlarm : Job → Bool
  | alarm => true
  | _ => false

def withoutAlarm : Job → Job
  | alarm => void
  | job => job

def withoutFetch : Job → Job
  | fetch _ => void
  | job => job

end Job

structure Answer where
  observed : Calendar.Instant
  result : Except Error (List Snapshot)

structure Session where
  config : Config
  source : Source
  tracker : Tracker
  scheduler : Scheduler
  stops : List Stop
  names : Registry String
  board : Board
  last : Option Update
  ticks : Nat
  jobs : List Job
  answers : List Answer

namespace Session

/-!
# New sessions
-/

def new (config : Config) (source : Source) : Except Error Session := do
  config.validate
  match config.offset? with
  | none => .error (.input .badOffset)
  | some offset =>
      let scheduler ←
        (Scheduler.new (source.mode.baseInterval config)).setMultiplier 0 config.multiplier
      .ok
        { config, source, scheduler
          tracker := .new offset
          stops := []
          names := []
          board := .empty
          last := none
          ticks := 0
          jobs := []
          answers := [] }

def stopNames (stops : List Stop) : Registry String :=
  stops.foldl (fun names stop => Registry.put names stop.key stop.name) []

def withStops (s : Session) (stops : List Stop) : Session :=
  { s with stops, names := stopNames stops }

/-!
# Views
-/

def mode (s : Session) : Mode :=
  s.source.mode

def isRunning (s : Session) : Bool :=
  s.scheduler.isRunning

def next? (s : Session) : Option BoardEntry :=
  s.board.next?

/-!
# Starting and stopping
-/

def startRemark (s : Session) : String :=
  "Simulation started: " ++ s.mode.name ++ " mode, ticking every "
    ++ Duration.text s.scheduler.interval

def start (s : Session) (now : Nat) : Except Error Session × Journal :=
  match s.scheduler.start now with
  | .ok scheduler =>
      (.ok { s with scheduler, jobs := s.jobs ++ [.alarm] },
        s.scheduler.startRemarks ++ Journal.info s.startRemark)
  | .error e => (.error e, s.scheduler.startRemarks)

/-- The work left once the running timer has been stopped. A timer that waits in line gives up its
turn; one that waits for the clock takes a last turn to end. -/
def jobsAfterStop (s : Session) : List Job :=
  if !s.isRunning then s.jobs
  else if s.jobs.any Job.isAlarm then s.jobs.map Job.withoutAlarm
  else s.jobs ++ [.void]

def stopTimer (s : Session) : Session :=
  { s with scheduler := s.scheduler.stop, jobs := s.jobsAfterStop }

def stopRemarks (s : Session) : Journal :=
  if s.isRunning then Journal.info ("Simulation stopped after " ++ toString s.ticks ++ " ticks")
  else []

def stop (s : Session) : Session × Journal :=
  (s.stopTimer, s.stopRemarks)

/-- Changes the speed of the timer. A running timer is replaced by another one, which waits in line
for its first turn. -/
def setMultiplier (s : Session) (now multiplier : Nat) : Except Error Session :=
  (s.scheduler.setMultiplier now multiplier).map fun scheduler =>
    { s with
      scheduler
      config := { s.config with multiplier }
      jobs := if s.isRunning then s.jobsAfterStop ++ [.alarm] else s.jobs }

/-- Back to the beginning: nothing is known of any stop, and requests for estimates are dropped.
Reports that have been made stay to be sent. -/
def reset (s : Session) : Session × Journal :=
  ({ s.stopTimer with
      source := s.source.reset
      tracker := s.tracker.clear
      jobs := s.jobsAfterStop.map Job.withoutFetch
      answers := []
      board := .empty
      last := none
      ticks := 0 },
    Journal.info "Simulation reset")

/-!
# Positions
-/

def reportJob (u : Update) (time : Calendar.Instant) : Job :=
  .report (.exactly u.coordinate time u.speed)

def tick (s : Session) (time : Calendar.Instant) : Except Error Update × Session × Journal :=
  match s.source.next with
  | .ok (update, source) =>
      (.ok update,
        { s with
          source
          ticks := s.ticks + 1
          last := some update
          jobs := s.jobs ++ [reportJob update time, .fetch s.config.routeCode] },
        [])
  | .error e =>
      if e.isPlaybackComplete then
        (.error e, s.stopTimer,
          Journal.info ("Playback complete after " ++ toString s.ticks ++ " ticks"))
      else (.error e, s, [])

def seek (s : Session) (time : Calendar.Instant) (index : Nat) : Except Error (Update × Session) :=
  (s.source.seek index).map fun (update, source) =>
    (update, { s with source, last := some update, jobs := s.jobs ++ [reportJob update time] })

/-!
# Estimates
-/

def learnNames (names : Registry String) (snapshots : List Snapshot) : Registry String :=
  snapshots.foldl
    (fun names s => match s.name with
      | some name => names.putNew s.key name
      | none => names)
    names

/-- Takes a response; `none` if one of its times lies beyond the calendar. -/
def observe (s : Session) (snapshots : List Snapshot) (observed : Calendar.Instant) :
    Option (Session × Journal) := do
  let (board, tracker, journal) ← s.tracker.respond snapshots observed
  some ({ s with names := learnNames s.names snapshots, tracker, board }, journal)

def apply (s : Session) (a : Answer) : Option (Session × Journal) :=
  match a.result with
  | .ok snapshots => s.observe snapshots a.observed
  | .error e => some (s, Journal.warn ("ETA request failed: " ++ e.message))

end Session
end TransitSim
