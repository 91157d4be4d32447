import TransitSim.Proofs.Tick.Operations

/-!
# When timers tick

A scheduler and its clock, with all timers that were begun and all ticks that were sent. Time passes
to whole milliseconds, and not beyond the moment at which the running timer is woken before it has
done what it was woken for. Under these conditions, whatever else happens and in whatever order, the
ticks of each timer are the first ones of its row of times, one period after the other from its
beginning on, up to the present or to its end.

The invariant is that the running timer has met all deadlines but those for which it has yet to be
woken. It follows that it is never late enough to put off a deadline.
-/

namespace TransitSim

namespace Clock

theorem wake_mono {a b : Nat} (h : a ≤ b) : wake a ≤ wake b := by
  unfold wake Duration.millisecond
  omega

theorem wake_mod (time : Nat) : wake time % Duration.millisecond = 0 := by
  unfold wake Duration.millisecond
  omega

theorem wake_of_mod {time : Nat} (h : time % Duration.millisecond = 0) : wake time = time := by
  unfold Duration.millisecond at h
  unfold wake Duration.millisecond
  omega

theorem wake_le {time later : Nat} (h : time ≤ later) (hwhole : later % Duration.millisecond = 0) :
    wake time ≤ later := by
  rw [← wake_of_mod hwhole]
  exact wake_mono h

end Clock

namespace Scheduler

open Duration (millisecond)

/-- A timer: its generation, when it was begun, the multiplier in force then, and when it was
ended. -/
structure Life where
  generation : Nat
  start : Nat
  multiplier : Nat
  ended : Option Nat

namespace Life

def period (base : Nat) (l : Life) : Nat :=
  base / l.multiplier

def tick (base : Nat) (l : Life) (k : Nat) : Tick :=
  ⟨l.generation, l.start + (k + 1) * l.period base⟩

def endAt (time : Nat) (l : Life) : Life :=
  { l with ended := some (l.ended.getD time) }

end Life

def nextDeadline (period deadline now : Nat) : Nat :=
  if deadline + 5 * millisecond < now then now + period else deadline + period

/-- A scheduler, the time, the deadline that the running timer waits for, all timers that were
begun, and all ticks that were received. -/
structure Timeline where
  scheduler : Scheduler
  now : Nat
  deadline : Nat
  lives : List Life
  received : List Tick

inductive Act where
  | start
  | stop
  | setMultiplier (multiplier : Nat)
  | fire
  | take
  | pass (time : Nat)

theorem start_interval_pos {s s' : Scheduler} {now : Nat} (h : s.start now = .ok s') :
    0 < s.interval := by
  cases hperiod : Period.checked s.base s.multiplier with
  | error e =>
      rw [start, hperiod] at h
      split at h <;> cases h
  | ok period => exact (checked_eq_ok_iff.mp ⟨period, hperiod⟩).2

namespace Timeline

def new (base : Nat) : Timeline := ⟨.new base, 0, 0, [], []⟩

/-- All ticks that were ever sent. -/
def sent (t : Timeline) : List Tick :=
  t.received ++ t.scheduler.queue

def ticksOf (t : Timeline) (l : Life) : List Tick :=
  t.sent.filter fun tick => tick.generation = l.generation

def endAll (t : Timeline) (s : Scheduler) : Timeline :=
  { t with scheduler := s, lives := t.lives.map (Life.endAt t.now) }

def begin (t : Timeline) (s : Scheduler) : Timeline :=
  { t with
    scheduler := s
    deadline := t.now + s.interval
    lives := t.lives ++ [⟨s.generation, t.now, s.multiplier, none⟩] }

/-- Whether the clock may move on to a time: to a whole millisecond, and not while the running timer
has something to do. -/
def MayPass (t : Timeline) (time : Nat) : Prop :=
  t.now ≤ time ∧ time % millisecond = 0 ∧
    (t.scheduler.isRunning = true → time ≤ Clock.wake t.deadline)

instance (t : Timeline) (time : Nat) : Decidable (t.MayPass time) := by
  unfold MayPass
  infer_instance

def step (t : Timeline) : Act → Timeline
  | .start =>
      match t.scheduler.start t.now with
      | .ok s => t.begin s
      | .error _ => t
  | .stop => if t.scheduler.isRunning then t.endAll t.scheduler.stop else t
  | .setMultiplier multiplier =>
      match t.scheduler.setMultiplier t.now multiplier with
      | .ok s =>
          if t.scheduler.isRunning then (t.endAll t.scheduler.stop).begin s
          else { t with scheduler := s }
      | .error _ => t
  | .fire =>
      match t.scheduler.timer with
      | some u =>
          if t.deadline ≤ t.now then
            { t with
              scheduler := t.scheduler.fire
              deadline := nextDeadline u.period t.deadline t.now }
          else t
      | none => t
  | .take =>
      match t.scheduler.take? with
      | some (tick, s) => { t with scheduler := s, received := t.received ++ [tick] }
      | none => t
  | .pass time => if t.MayPass time then { t with now := time } else t

def run (t : Timeline) (acts : List Act) : Timeline :=
  acts.foldl step t

theorem run_cons (t : Timeline) (a : Act) (rest : List Act) :
    t.run (a :: rest) = (t.step a).run rest := rfl

theorem run_singleton (t : Timeline) (a : Act) : t.run [a] = t.step a := rfl

theorem run_append (t : Timeline) (first second : List Act) :
    t.run (first ++ second) = (t.run first).run second :=
  List.foldl_append

/-!
# The invariant
-/

/-- By a time a timer has sent its first `n` ticks, all that were due before that time if its period
is a whole number of milliseconds. -/
structure HasSent (base time n : Nat) (l : Life) (ticks : List Tick) : Prop where
  ticks_eq : ticks = (List.range n).map (l.tick base)
  le : l.start + n * l.period base ≤ time
  all : l.period base % millisecond = 0 → ∀ k, (l.tick base k).firedAt < time → k < n

/-- The running timer has met all deadlines for which it was woken. -/
structure Runs (base : Nat) (t : Timeline) (l : Life) (u : Timer) : Prop where
  alive : l.ended = none
  generation_eq : l.generation = t.scheduler.generation
  timer_eq : u = ⟨l.generation, l.start, l.period base, u.fired⟩
  deadline_eq : t.deadline = u.due
  start_whole : l.start % millisecond = 0
  fired_le : l.start + u.fired * l.period base ≤ t.now
  le_wake : t.now ≤ Clock.wake u.due
  ticks_eq : t.ticksOf l = (List.range u.fired).map (l.tick base)

structure Sound (base : Nat) (t : Timeline) : Prop where
  base_eq : t.scheduler.base = base
  whole : t.now % millisecond = 0
  growing : (t.lives.map (·.generation)).Pairwise (· < ·)
  bounded : ∀ l ∈ t.lives, l.generation ≤ t.scheduler.generation
  origin : ∀ tick ∈ t.sent, exists l, l ∈ t.lives ∧ l.generation = tick.generation
  period_pos : ∀ l ∈ t.lives, 0 < l.period base
  ended : ∀ l ∈ t.lives, ∀ time, l.ended = some time →
    time ≤ t.now ∧ exists n, HasSent base time n l (t.ticksOf l)
  idle : t.scheduler.timer = none →
    ∀ l ∈ t.lives, l.ended ≠ none ∧ l.generation < t.scheduler.generation
  running : ∀ u, t.scheduler.timer = some u → exists earlier l, t.lives = earlier ++ [l] ∧
    (∀ e ∈ earlier, e.ended ≠ none) ∧ Runs base t l u

variable {base : Nat} {t : Timeline}

theorem sound_new (base : Nat) : Sound base (new base) where
  base_eq := rfl
  whole := rfl
  growing := List.Pairwise.nil
  bounded := by simp [new]
  origin := by simp [new, sent, Scheduler.new]
  period_pos := by simp [new]
  ended := by simp [new]
  idle := by simp [new]
  running := by simp [new, Scheduler.new]

theorem due_eq {l : Life} {u : Timer} (h : Runs base t l u) :
    u.due = (l.tick base u.fired).firedAt := by
  rw [h.timer_eq]
  rfl

theorem Runs.hasSent {l : Life} {u : Timer} (h : Runs base t l u) :
    HasSent base t.now u.fired l (t.ticksOf l) where
  ticks_eq := h.ticks_eq
  le := h.fired_le
  all := by
    intro hperiod k hk
    have hdue : u.due % millisecond = 0 := by
      rw [due_eq h, Life.tick, Nat.add_mod, h.start_whole, Nat.mul_mod, hperiod]
      rfl
    have hnow := h.le_wake
    rw [Clock.wake_of_mod hdue, due_eq h] at hnow
    have hlt : (l.tick base k).firedAt < (l.tick base u.fired).firedAt := Nat.lt_of_lt_of_le hk hnow
    unfold Life.tick at hlt
    have hmul := Nat.lt_of_mul_lt_mul_right (Nat.lt_of_add_lt_add_left hlt)
    omega

theorem ticksOf_congr {t' : Timeline} (h : t'.sent = t.sent) (l : Life) :
    t'.ticksOf l = t.ticksOf l := by
  unfold ticksOf
  rw [h]

/-!
# What happens keeps the invariant
-/

theorem Sound.pass (h : Sound base t) {time : Nat} (hpass : t.MayPass time) :
    Sound base { t with now := time } := by
  rcases hpass with ⟨hle, hwhole, hwake⟩
  refine { h with whole := hwhole, ended := ?_, running := ?_ }
  · intro l hl e he
    rcases h.ended l hl e he with ⟨hbefore, hsent⟩
    exact ⟨Nat.le_trans hbefore hle, hsent⟩
  · intro u hu
    rcases h.running u hu with ⟨earlier, l, hlives, hearlier, hruns⟩
    have hwoken : time ≤ Clock.wake u.due := by
      rw [← hruns.deadline_eq]
      apply hwake
      unfold isRunning
      rw [hu]
      rfl
    exact ⟨earlier, l, hlives, hearlier,
      { hruns with fired_le := Nat.le_trans hruns.fired_le hle, le_wake := hwoken }⟩

theorem Sound.take (h : Sound base t) {tick : Tick} {s : Scheduler}
    (htake : t.scheduler.take? = some (tick, s)) :
    Sound base { t with scheduler := s, received := t.received ++ [tick] } := by
  unfold take? at htake
  cases hqueue : t.scheduler.queue with
  | nil =>
      rw [hqueue] at htake
      cases htake
  | cons first rest =>
      rw [hqueue] at htake
      cases htake
      have hsent : ({ t with
          scheduler := { t.scheduler with queue := rest }
          received := t.received ++ [tick] } : Timeline).sent = t.sent := by
        unfold sent
        rw [hqueue, List.append_assoc]
        rfl
      refine { h with origin := ?_, ended := ?_, running := ?_ }
      · rw [hsent]
        exact h.origin
      · intro l hl
        rw [ticksOf_congr hsent]
        exact h.ended l hl
      · intro u hu
        rcases h.running u hu with ⟨earlier, l, hlives, hearlier, hruns⟩
        refine ⟨earlier, l, hlives, hearlier, { hruns with ticks_eq := ?_ }⟩
        rw [ticksOf_congr hsent]
        exact hruns.ticks_eq

theorem Runs.nextDeadline_eq {l : Life} {u : Timer} (h : Runs base t l u) :
    nextDeadline u.period t.deadline t.now = ({ u with fired := u.fired + 1 } : Timer).due := by
  have hlate := Clock.wake_lt u.due
  have hnow := h.le_wake
  have hnext : ({ u with fired := u.fired + 1 } : Timer).due = u.due + u.period := by
    unfold Timer.due Timer.dueAfter
    simp only [Nat.succ_mul (u.fired + 1), Nat.add_assoc]
  unfold nextDeadline
  rw [if_neg, h.deadline_eq, hnext]
  rw [h.deadline_eq]
  unfold Duration.millisecond at *
  omega

theorem Sound.eq_of_generation (h : Sound base t) {l m : Life} (hl : l ∈ t.lives) (hm : m ∈ t.lives)
    (heq : l.generation = m.generation) : l = m := by
  rcases List.mem_iff_getElem.mp hl with ⟨i, hi, rfl⟩
  rcases List.mem_iff_getElem.mp hm with ⟨j, hj, rfl⟩
  have hgrowing := List.pairwise_iff_getElem.mp h.growing
  simp only [List.length_map, List.getElem_map] at hgrowing
  rcases Nat.lt_trichotomy i j with hlt | rfl | hlt
  · have := hgrowing i j hi hj hlt
    omega
  · rfl
  · have := hgrowing j i hj hi hlt
    omega

theorem Sound.fire (h : Sound base t) {u : Timer} (hu : t.scheduler.timer = some u)
    (hdue : t.deadline ≤ t.now) :
    Sound base { t with
      scheduler := t.scheduler.fire
      deadline := nextDeadline u.period t.deadline t.now } := by
  rcases h.running u hu with ⟨earlier, l, hlives, hearlier, hruns⟩
  have hl : l ∈ t.lives := by
    rw [hlives]
    exact List.mem_append_right _ (List.mem_singleton_self l)
  have htick : u.tickAfter u.fired = l.tick base u.fired := by
    rw [hruns.timer_eq]
    rfl
  have hfire : t.scheduler.fire =
      { t.scheduler with
        timer := some { u with fired := u.fired + 1 }
        queue := t.scheduler.queue ++ [l.tick base u.fired] } := by
    unfold Scheduler.fire
    rw [hu, ← htick]
  rw [hfire]
  generalize hfired : ({ t with
    scheduler := { t.scheduler with
      timer := some { u with fired := u.fired + 1 }
      queue := t.scheduler.queue ++ [l.tick base u.fired] }
    deadline := nextDeadline u.period t.deadline t.now } : Timeline) = fired
  have hsent : fired.sent = t.sent ++ [l.tick base u.fired] := by
    rw [← hfired]
    exact (List.append_assoc _ _ _).symm
  have hown : fired.ticksOf l = (List.range (u.fired + 1)).map (l.tick base) := by
    unfold ticksOf
    rw [hsent, List.filter_append, List.range_succ, List.map_append]
    congr 1
    · exact hruns.ticks_eq
    · exact List.filter_cons_of_pos (by simp [Life.tick])
  have hother : ∀ m ∈ t.lives, m.generation ≠ l.generation → fired.ticksOf m = t.ticksOf m := by
    intro m _ hne
    unfold ticksOf
    rw [hsent, List.filter_append, List.filter_cons_of_neg, List.filter_nil, List.append_nil]
    exact fun hsame => hne (of_decide_eq_true hsame).symm
  subst hfired
  refine { h with origin := ?_, ended := ?_, idle := ?_, running := ?_ }
  · intro tick hsame
    rw [hsent] at hsame
    rcases List.mem_append.mp hsame with hold | hnew
    · exact h.origin tick hold
    · rw [List.mem_singleton.mp hnew]
      exact ⟨l, hl, rfl⟩
  · intro m hm e he
    have hne : m.generation ≠ l.generation := by
      intro hsame
      rw [h.eq_of_generation hm hl hsame, hruns.alive] at he
      cases he
    rw [hother m hm hne]
    exact h.ended m hm e he
  · intro hnone
    cases hnone
  · intro v hv
    cases hv
    refine ⟨earlier, l, hlives, hearlier, ?_⟩
    constructor
    case alive => exact hruns.alive
    case generation_eq => exact hruns.generation_eq
    case timer_eq =>
      have htimer := hruns.timer_eq
      cases u
      cases htimer
      rfl
    case deadline_eq => exact hruns.nextDeadline_eq
    case start_whole => exact hruns.start_whole
    case fired_le =>
      rw [hruns.deadline_eq, due_eq hruns] at hdue
      exact hdue
    case le_wake =>
      apply Nat.le_trans hruns.le_wake
      apply Clock.wake_mono
      unfold Timer.due Timer.dueAfter
      exact Nat.add_le_add_left (Nat.mul_le_mul_right _ (Nat.le_succ _)) _
    case ticks_eq => exact hown

/-!
# Timers end and begin
-/

theorem Sound.endAll (h : Sound base t) (hrunning : t.scheduler.isRunning = true)
    {s : Scheduler} (hbase : s.base = base) (htimer : s.timer = none)
    (hgeneration : s.generation = t.scheduler.generation + 1)
    (hqueue : s.queue = t.scheduler.queue) : Sound base (t.endAll s) := by
  rcases Option.isSome_iff_exists.mp hrunning with ⟨u, hu⟩
  rcases h.running u hu with ⟨earlier, last, hlives, hearlier, hruns⟩
  have hsent : (t.endAll s).sent = t.sent := by
    unfold sent
    show t.received ++ s.queue = _
    rw [hqueue]
  constructor
  case base_eq => exact hbase
  case whole => exact h.whole
  case growing =>
    show ((t.lives.map (Life.endAt t.now)).map (·.generation)).Pairwise _
    rw [List.map_map]
    exact h.growing
  case bounded =>
    intro l hl
    rcases List.mem_map.mp hl with ⟨m, hm, rfl⟩
    show m.generation ≤ s.generation
    have := h.bounded m hm
    omega
  case origin =>
    intro tick htick
    rw [hsent] at htick
    rcases h.origin tick htick with ⟨m, hm, hsame⟩
    exact ⟨_, List.mem_map_of_mem hm, hsame⟩
  case period_pos =>
    intro l hl
    rcases List.mem_map.mp hl with ⟨m, hm, rfl⟩
    exact h.period_pos m hm
  case ended =>
    intro l hl time htime
    rcases List.mem_map.mp hl with ⟨m, hm, rfl⟩
    rw [ticksOf_congr hsent]
    cases hended : m.ended with
    | some e =>
        have heq : e = time := by simpa [Life.endAt, hended] using htime
        rw [← heq]
        rcases h.ended m hm e hended with ⟨hbefore, n, hn⟩
        exact ⟨hbefore, n, hn.ticks_eq, hn.le, hn.all⟩
    | none =>
        have heq : t.now = time := by simpa [Life.endAt, hended] using htime
        rw [← heq]
        have hlast : m = last := by
          rw [hlives] at hm
          rcases List.mem_append.mp hm with hbefore | hm
          · exact absurd hended (hearlier m hbefore)
          · exact List.mem_singleton.mp hm
        rw [hlast]
        exact ⟨Nat.le_refl _, u.fired, hruns.hasSent.ticks_eq, hruns.hasSent.le, hruns.hasSent.all⟩
  case idle =>
    intro _ l hl
    rcases List.mem_map.mp hl with ⟨m, hm, rfl⟩
    refine ⟨Option.some_ne_none _, ?_⟩
    show m.generation < s.generation
    have := h.bounded m hm
    omega
  case running =>
    intro v hv
    have hv : s.timer = some v := hv
    rw [htimer] at hv
    cases hv

theorem Sound.begin (h : Sound base t) (hidle : t.scheduler.timer = none) {s : Scheduler}
    (hbase : s.base = base) (hpos : 0 < s.interval)
    (htimer : s.timer = some ⟨s.generation, t.now, s.interval, 0⟩)
    (hgeneration : s.generation = t.scheduler.generation)
    (hqueue : s.queue = t.scheduler.queue) : Sound base (t.begin s) := by
  have hsent : (t.begin s).sent = t.sent := by
    unfold sent
    show t.received ++ s.queue = _
    rw [hqueue]
  have hperiod : (⟨s.generation, t.now, s.multiplier, none⟩ : Life).period base = s.interval := by
    unfold Life.period interval Period.of
    rw [hbase]
  constructor
  case base_eq => exact hbase
  case whole => exact h.whole
  case growing =>
    show ((t.lives ++ [(⟨s.generation, t.now, s.multiplier, none⟩ : Life)]).map
      (·.generation)).Pairwise _
    rw [List.map_append, List.pairwise_append]
    refine ⟨h.growing, List.pairwise_singleton _ _, ?_⟩
    intro a ha b hb
    rcases List.mem_map.mp ha with ⟨l, hl, rfl⟩
    rw [List.mem_singleton.mp hb, hgeneration]
    exact (h.idle hidle l hl).2
  case bounded =>
    intro l hl
    rcases List.mem_append.mp hl with hl | hl
    · show l.generation ≤ s.generation
      rw [hgeneration]
      exact h.bounded l hl
    · rw [List.mem_singleton.mp hl]
      exact Nat.le_refl _
  case origin =>
    intro tick htick
    rw [hsent] at htick
    rcases h.origin tick htick with ⟨l, hl, hsame⟩
    exact ⟨l, List.mem_append_left _ hl, hsame⟩
  case period_pos =>
    intro l hl
    rcases List.mem_append.mp hl with hl | hl
    · exact h.period_pos l hl
    · rw [List.mem_singleton.mp hl, hperiod]
      exact hpos
  case ended =>
    intro l hl time htime
    rw [ticksOf_congr hsent]
    rcases List.mem_append.mp hl with hl | hl
    · exact h.ended l hl time htime
    · rw [List.mem_singleton.mp hl] at htime
      cases htime
  case idle =>
    intro hnone
    have hnone : s.timer = none := hnone
    rw [htimer] at hnone
    cases hnone
  case running =>
    intro u hu
    have hu : s.timer = some u := hu
    rw [htimer] at hu
    cases hu
    refine ⟨t.lives, _, rfl, fun e he => (h.idle hidle e he).1, ?_⟩
    constructor
    case alive => rfl
    case generation_eq => rfl
    case timer_eq => rw [hperiod]
    case deadline_eq =>
      show t.now + s.interval = t.now + (0 + 1) * s.interval
      rw [Nat.zero_add, Nat.one_mul]
    case start_whole => exact h.whole
    case fired_le =>
      show t.now + 0 * _ ≤ t.now
      omega
    case le_wake => exact Nat.le_trans (Nat.le_add_right _ _) (Clock.le_wake _)
    case ticks_eq =>
      rw [ticksOf_congr hsent]
      apply List.filter_eq_nil_iff.mpr
      intro tick htick hsame
      rcases h.origin tick htick with ⟨l, hl, hgen⟩
      have hlt := (h.idle hidle l hl).2
      have hsame : tick.generation = s.generation := by simpa using hsame
      omega

theorem Sound.start (h : Sound base t) : Sound base (t.step .start) := by
  simp only [step]
  split
  · rename_i s hstart
    have hpos := start_interval_pos hstart
    rcases start_eq_ok hstart with ⟨hidle, rfl⟩
    exact h.begin hidle h.base_eq hpos rfl rfl rfl
  · exact h

theorem Sound.stop (h : Sound base t) : Sound base (t.step .stop) := by
  simp only [step]
  split
  · rename_i hrunning
    rw [stop_of_running hrunning]
    exact h.endAll hrunning h.base_eq rfl rfl rfl
  · exact h

theorem Sound.setMultiplier (h : Sound base t) (multiplier : Nat) :
    Sound base (t.step (.setMultiplier multiplier)) := by
  simp only [step]
  split
  · rename_i s hset
    rcases setMultiplier_eq_ok hset with ⟨-, hpos, hs⟩
    cases hrunning : t.scheduler.isRunning with
    | true =>
        rw [hrunning, if_pos rfl] at hs
        rw [if_pos rfl, hs, stop_of_running hrunning]
        have hended : Sound base (t.endAll { t.scheduler with
            timer := none, generation := t.scheduler.generation + 1 }) :=
          h.endAll hrunning h.base_eq rfl rfl rfl
        exact hended.begin rfl h.base_eq hpos rfl rfl rfl
    | false =>
        have hidle : t.scheduler.timer = none := by simpa [isRunning] using hrunning
        rw [hrunning, if_neg Bool.false_ne_true] at hs
        rw [if_neg Bool.false_ne_true, hs]
        refine { h with running := ?_ }
        intro u hu
        cases hidle.symm.trans hu
  · exact h

theorem Sound.step (h : Sound base t) (a : Act) : Sound base (t.step a) := by
  cases a with
  | start => exact h.start
  | stop => exact h.stop
  | setMultiplier multiplier => exact h.setMultiplier multiplier
  | fire =>
      simp only [Timeline.step]
      split
      · rename_i u hu
        split
        · rename_i hdue
          exact h.fire hu hdue
        · exact h
      · exact h
  | take =>
      simp only [Timeline.step]
      split
      · rename_i tick s htake
        exact h.take htake
      · exact h
  | pass time =>
      simp only [Timeline.step]
      split
      · rename_i hpass
        exact h.pass hpass
      · exact h

theorem Sound.run (h : Sound base t) (acts : List Act) : Sound base (t.run acts) := by
  induction acts generalizing t with
  | nil => exact h
  | cons a rest ih => exact ih (h.step a)

end Timeline
end Scheduler
end TransitSim
