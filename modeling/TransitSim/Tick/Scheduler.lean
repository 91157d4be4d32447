import TransitSim.Journal
import TransitSim.Tick.Clock
import TransitSim.Tick.Period

/-!
# Ticks

A scheduler runs at most one timer, and the ticks of its timers wait in one queue. A tick carries
the generation of its timer. Stopping a timer, or replacing it by one with another period, begins
a new generation, so that ticks of earlier timers are told apart however long they wait.
-/

namespace TransitSim

structure Tick where
  generation : Nat
  firedAt : Nat
  deriving DecidableEq, Repr

structure Timer where
  generation : Nat
  start : Nat
  period : Nat
  fired : Nat
  deriving DecidableEq, Repr

namespace Timer

def dueAfter (t : Timer) (n : Nat) : Nat :=
  t.start + (n + 1) * t.period

def due (t : Timer) : Nat :=
  t.dueAfter t.fired

def tickAfter (t : Timer) (n : Nat) : Tick :=
  ⟨t.generation, t.dueAfter n⟩

def dueBy (t : Timer) (time : Nat) : Nat :=
  (time - t.start) / t.period - t.fired

end Timer

/-- The base interval in nanoseconds, the multiplier, the current generation, the running timer,
and the ticks that nobody has taken yet. -/
structure Scheduler where
  base : Nat
  multiplier : Nat
  generation : Nat
  timer : Option Timer
  queue : List Tick
  deriving DecidableEq, Repr

namespace Scheduler

def new (base : Nat) : Scheduler := ⟨base, 1, 0, none, []⟩

def interval (s : Scheduler) : Nat :=
  Period.of s.base s.multiplier

def isRunning (s : Scheduler) : Bool :=
  s.timer.isSome

def isCurrent (s : Scheduler) (t : Tick) : Bool :=
  s.isRunning && t.generation == s.generation

/-!
# Starting and stopping
-/

def spawn (s : Scheduler) (now : Nat) : Scheduler :=
  { s with timer := some ⟨s.generation, now, s.interval, 0⟩ }

def alreadyRunning : String :=
  "Tick scheduler already running, ignoring start"

def start (s : Scheduler) (now : Nat) : Except Error Scheduler :=
  if s.isRunning then .error .alreadyRunning
  else (Period.checked s.base s.multiplier).map fun _ => s.spawn now

def startRemarks (s : Scheduler) : Journal :=
  if s.isRunning then Journal.warn alreadyRunning else []

def stop (s : Scheduler) : Scheduler :=
  if s.isRunning then { s with timer := none, generation := s.generation + 1 } else s

def setMultiplier (s : Scheduler) (now multiplier : Nat) : Except Error Scheduler :=
  (Period.checked s.base multiplier).map fun _ =>
    let s := { s with multiplier }
    if s.isRunning then s.stop.spawn now else s

/-!
# Firing and taking ticks
-/

def fire (s : Scheduler) : Scheduler :=
  match s.timer with
  | none => s
  | some t =>
      { s with timer := some { t with fired := t.fired + 1 }, queue := s.queue ++ [t.tickAfter t.fired] }

def fireTimes (s : Scheduler) (count : Nat) : Scheduler :=
  match s.timer with
  | none => s
  | some t =>
      { s with
        timer := some { t with fired := t.fired + count }
        queue := s.queue ++ (List.range count).map fun i => t.tickAfter (t.fired + i) }

def dueBy (s : Scheduler) (time : Nat) : Nat :=
  match s.timer with
  | none => 0
  | some t => t.dueBy time

def fireBy (s : Scheduler) (time : Nat) : Scheduler :=
  s.fireTimes (s.dueBy time)

def burst : Nat := 128

/-- The running timer has one turn at a time. -/
def fireBurst (s : Scheduler) (time : Nat) : Scheduler :=
  s.fireTimes (min burst (s.dueBy time))

def nextWake? (s : Scheduler) : Option Nat :=
  s.timer.map fun t => Clock.wake t.due

def take? (s : Scheduler) : Option (Tick × Scheduler) :=
  match s.queue with
  | [] => none
  | t :: rest => some (t, { s with queue := rest })

def drain (s : Scheduler) : List Tick × Scheduler :=
  (s.queue, { s with queue := [] })

/-!
# Waiting

Whoever waits for a time is woken at it before the timer is. A timer that wakes at that time fires
when somebody waits next.
-/

/-- What has been due by the time `time` when somebody waiting for it is woken. -/
def firedBefore (s : Scheduler) (time : Nat) : Scheduler :=
  s.fireBy (time - Duration.millisecond)

def sleep (s : Scheduler) (now ms : Nat) : Scheduler × Nat :=
  if ms = 0 then (s, now)
  else
    let stop := now + Period.ofMillis ms
    (s.firedBefore stop, stop)

def next (s : Scheduler) (now ms : Nat) : Option Tick × Scheduler × Nat :=
  match s.take? with
  | some (t, s) => (some t, s, now)
  | none =>
      let stop := now + Period.ofMillis ms
      match s.nextWake? with
      | none => (none, s, stop)
      | some wake =>
          let woken := max now wake
          if woken < stop then
            let s := s.fireBurst woken
            match s.take? with
            | some (t, s) => (some t, s, woken)
            | none => (none, s, woken)
          else (none, s, stop)

end Scheduler
end TransitSim
