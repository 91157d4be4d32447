import TransitSim.Proofs.Tick.Operations

/-!
# Schedulers with a past

A scheduler that has run timers before differs from a new one in two ways. Its generations begin at
a greater number, and ticks of earlier generations may still stand in front of the queue. Neither
has an effect: the scheduler does what the other one does, its old ticks left where they are.
-/

namespace TransitSim

def Tick.later (generations : Nat) (t : Tick) : Tick :=
  { t with generation := generations + t.generation }

def Timer.later (generations : Nat) (t : Timer) : Timer :=
  { t with generation := generations + t.generation }

namespace Scheduler

variable (generations : Nat) (old : List Tick)

def after (s : Scheduler) : Scheduler :=
  { s with
    generation := generations + s.generation
    timer := s.timer.map (Timer.later generations)
    queue := old ++ s.queue.map (Tick.later generations) }

theorem after_zero (s : Scheduler) : s.after 0 [] = s := by
  have htick : Tick.later 0 = id := funext fun t => by simp [Tick.later]
  have htimer : Timer.later 0 = id := funext fun t => by simp [Timer.later]
  simp [after, htick, htimer]

theorem eq_after_of_idle {s : Scheduler} (h : s.isRunning = false) :
    s = ({ Scheduler.new s.base with multiplier := s.multiplier } : Scheduler).after s.generation
      s.queue := by
  have htimer : s.timer = none := by simpa [isRunning] using h
  rcases s with ⟨base, multiplier, generation, timer, queue⟩
  cases htimer
  simp [after, new]

@[simp] theorem isRunning_after (s : Scheduler) :
    (s.after generations old).isRunning = s.isRunning := by
  simp [isRunning, after]

@[simp] theorem interval_after (s : Scheduler) :
    (s.after generations old).interval = s.interval := rfl

/-!
# Starting and stopping
-/

theorem start_after (s : Scheduler) (now : Nat) :
    (s.after generations old).start now = (s.start now).map (after generations old) := by
  simp only [start, isRunning_after]
  cases hrunning : s.isRunning with
  | true => rfl
  | false =>
      show (Period.checked s.base s.multiplier).map _ = _
      cases Period.checked s.base s.multiplier <;> rfl

theorem startRemarks_after (s : Scheduler) :
    (s.after generations old).startRemarks = s.startRemarks := by
  simp [startRemarks]

theorem stop_after (s : Scheduler) :
    (s.after generations old).stop = s.stop.after generations old := by
  cases hrunning : s.isRunning with
  | true =>
      rw [stop_of_running hrunning, stop_of_running (by simpa using hrunning)]
      rfl
  | false => rw [stop_of_idle hrunning, stop_of_idle (by simpa using hrunning)]

theorem setMultiplier_after (s : Scheduler) (now multiplier : Nat) :
    (s.after generations old).setMultiplier now multiplier =
      (s.setMultiplier now multiplier).map (after generations old) := by
  show (Period.checked s.base multiplier).map _ = _
  rw [setMultiplier]
  cases Period.checked s.base multiplier with
  | error e => rfl
  | ok period =>
      simp only [Except.map]
      congr 1
      have hfaster : ({ s.after generations old with multiplier } : Scheduler) =
          ({ s with multiplier } : Scheduler).after generations old := rfl
      rw [hfaster, isRunning_after, stop_after]
      split <;> rfl

/-!
# Firing
-/

theorem fireTimes_after (s : Scheduler) (count : Nat) :
    (s.after generations old).fireTimes count = (s.fireTimes count).after generations old := by
  cases htimer : s.timer with
  | none => simp [fireTimes, after, htimer]
  | some t =>
      simp [fireTimes, after, htimer, Timer.later, Tick.later, Timer.tickAfter, Timer.dueAfter]

theorem dueBy_after (s : Scheduler) (time : Nat) :
    (s.after generations old).dueBy time = s.dueBy time := by
  cases htimer : s.timer <;> simp [dueBy, after, htimer, Timer.later, Timer.dueBy]

theorem fireBurst_after (s : Scheduler) (time : Nat) :
    (s.after generations old).fireBurst time = (s.fireBurst time).after generations old := by
  rw [fireBurst, dueBy_after, fireTimes_after, fireBurst]

theorem nextWake?_after (s : Scheduler) :
    (s.after generations old).nextWake? = s.nextWake? := by
  cases htimer : s.timer <;>
    simp [nextWake?, after, htimer, Timer.later, Timer.due, Timer.dueAfter]

/-!
# Telling ticks apart
-/

theorem isCurrent_after (s : Scheduler) (t : Tick) :
    (s.after generations old).isCurrent (t.later generations) = s.isCurrent t := by
  rw [Bool.eq_iff_iff, isCurrent_iff, isCurrent_iff, isRunning_after]
  simp [after, Tick.later]

theorem isCurrent_after_of_lt (s : Scheduler) {t : Tick} (h : t.generation < generations) :
    (s.after generations old).isCurrent t = false := by
  have hne : t.generation ≠ generations + s.generation := by omega
  simp [isCurrent, after, hne]

end Scheduler
end TransitSim
