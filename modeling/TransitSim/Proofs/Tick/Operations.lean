import TransitSim.Tick.Scheduler

/-!
# What the operations of a scheduler do

Each operation is told here by what it needs and what it leaves, so that later proofs do not open
it. A timer may fire any number of times between two looks at its scheduler: all that this changes
is how often it has fired and what stands at the end of the queue.

A scheduler is ready if its next tick can be had. All operations keep it so, and a timer of a
ready scheduler never adds to the ticks that will be dropped.
-/

namespace TransitSim
namespace Scheduler

/-!
# Starting and stopping
-/

theorem isCurrent_iff {s : Scheduler} {tick : Tick} :
    s.isCurrent tick = true ↔ s.isRunning = true ∧ tick.generation = s.generation := by
  simp [isCurrent]

theorem checked_eq_ok_iff {base multiplier : Nat} :
    (exists period, Period.checked base multiplier = .ok period) ↔
      0 < multiplier ∧ 0 < Period.of base multiplier := by
  by_cases hm : multiplier = 0
  · simp [Period.checked, hm]
  · by_cases hp : Period.of base multiplier = 0
    · simp [Period.checked, hm, hp]
    · simp [Period.checked, hm, hp, Nat.pos_of_ne_zero]

theorem start_eq_ok {s s' : Scheduler} {now : Nat} (h : s.start now = .ok s') :
    s.timer = none ∧ s' = s.spawn now := by
  cases htimer : s.timer with
  | some t => simp [start, isRunning, htimer] at h
  | none =>
      cases hperiod : Period.checked s.base s.multiplier with
      | error e => simp [start, isRunning, htimer, hperiod, Except.map] at h
      | ok period =>
          simp only [start, isRunning, htimer, hperiod, Except.map] at h
          cases h
          exact ⟨rfl, rfl⟩

theorem setMultiplier_eq_ok {s s' : Scheduler} {now multiplier : Nat}
    (h : s.setMultiplier now multiplier = .ok s') :
    0 < multiplier ∧ 0 < Period.of s.base multiplier ∧
      s' =
        if s.isRunning then { s with multiplier, generation := s.generation + 1 }.spawn now
        else { s with multiplier } := by
  cases hperiod : Period.checked s.base multiplier with
  | error e => simp [setMultiplier, hperiod, Except.map] at h
  | ok period =>
      obtain ⟨hm, hp⟩ := checked_eq_ok_iff.mp ⟨period, hperiod⟩
      refine ⟨hm, hp, ?_⟩
      simp only [setMultiplier, hperiod, Except.map] at h
      cases h
      cases htimer : s.timer <;> simp [isRunning, stop, spawn, interval, htimer]

theorem stop_of_running {s : Scheduler} (h : s.isRunning) :
    s.stop = { s with timer := none, generation := s.generation + 1 } := by
  simp [stop, h]

theorem stop_of_idle {s : Scheduler} (h : s.isRunning = false) : s.stop = s := by
  simp [stop, h]

@[simp] theorem isRunning_stop (s : Scheduler) : s.stop.isRunning = false := by
  cases h : s.isRunning with
  | true =>
      rw [stop_of_running h]
      rfl
  | false => rw [stop_of_idle h, h]

/-!
# What firing leaves alone
-/

@[simp] theorem base_fireTimes (s : Scheduler) (n : Nat) : (s.fireTimes n).base = s.base := by
  cases h : s.timer <;> simp [fireTimes, h]

@[simp] theorem multiplier_fireTimes (s : Scheduler) (n : Nat) :
    (s.fireTimes n).multiplier = s.multiplier := by
  cases h : s.timer <;> simp [fireTimes, h]

@[simp] theorem generation_fireTimes (s : Scheduler) (n : Nat) :
    (s.fireTimes n).generation = s.generation := by
  cases h : s.timer <;> simp [fireTimes, h]

@[simp] theorem interval_fireTimes (s : Scheduler) (n : Nat) :
    (s.fireTimes n).interval = s.interval := by
  simp [interval]

theorem timer_fireTimes (s : Scheduler) (n : Nat) :
    (s.fireTimes n).timer = s.timer.map fun t => { t with fired := t.fired + n } := by
  cases h : s.timer <;> simp [fireTimes, h]

@[simp] theorem isRunning_fireTimes (s : Scheduler) (n : Nat) :
    (s.fireTimes n).isRunning = s.isRunning := by
  simp [isRunning, timer_fireTimes]

@[simp] theorem isCurrent_fireTimes (s : Scheduler) (n : Nat) (tick : Tick) :
    (s.fireTimes n).isCurrent tick = s.isCurrent tick := by
  simp [isCurrent]

@[simp] theorem fireTimes_zero (s : Scheduler) : s.fireTimes 0 = s := by
  cases h : s.timer with
  | none => simp [fireTimes, h]
  | some t =>
      obtain ⟨base, multiplier, generation, timer, queue⟩ := s
      cases h
      simp [fireTimes]

theorem fireTimes_fireTimes (s : Scheduler) (a b : Nat) :
    (s.fireTimes a).fireTimes b = s.fireTimes (a + b) := by
  cases h : s.timer with
  | none => simp [fireTimes, h]
  | some t =>
      simp only [fireTimes, h, List.range_add, List.map_append, List.map_map, List.append_assoc,
        Nat.add_assoc]
      rfl

theorem fire_eq_fireTimes (s : Scheduler) : s.fire = s.fireTimes 1 := by
  cases h : s.timer <;> simp [fire, fireTimes, h]

/-!
# The queue
-/

theorem queue_fireTimes {s : Scheduler} {t : Timer} (h : s.timer = some t) (n : Nat) :
    (s.fireTimes n).queue =
      s.queue ++ (List.range n).map fun i => t.tickAfter (t.fired + i) := by
  simp [fireTimes, h]

theorem queue_fireTimes_of_idle {s : Scheduler} (h : s.timer = none) (n : Nat) :
    (s.fireTimes n).queue = s.queue := by
  simp [fireTimes, h]

def stale (s : Scheduler) : List Tick :=
  s.queue.filter fun tick => !s.isCurrent tick

theorem stale_of_not_isCurrent {s : Scheduler} {tick : Tick} {rest : List Tick}
    (hqueue : s.queue = tick :: rest) (h : s.isCurrent tick = false) :
    s.stale = tick :: { s with queue := rest }.stale := by
  rw [stale, hqueue, List.filter_cons_of_pos (by simp [h])]
  rfl

theorem stale_of_isCurrent {s : Scheduler} {tick : Tick} {rest : List Tick}
    (hqueue : s.queue = tick :: rest) (h : s.isCurrent tick = true) :
    s.stale = { s with queue := rest }.stale := by
  rw [stale, hqueue, List.filter_cons_of_neg (by simp [h])]
  rfl

/-- Whether the next tick can be had: the running timer sends ticks of the present generation, at
times that come, and could be started if it were not running. -/
structure Ready (s : Scheduler) : Prop where
  multiplier_pos : 0 < s.multiplier
  interval_pos : 0 < s.interval
  generation_eq : ∀ t, s.timer = some t → t.generation = s.generation
  period_eq : ∀ t, s.timer = some t → t.period = s.interval

theorem Ready.isCurrent_tickAfter {s : Scheduler} (h : s.Ready) {t : Timer} (ht : s.timer = some t)
    (n : Nat) : s.isCurrent (t.tickAfter n) = true := by
  simp [isCurrent, isRunning, ht, Timer.tickAfter, h.generation_eq t ht]

theorem Ready.stale_fireTimes {s : Scheduler} (h : s.Ready) (n : Nat) :
    (s.fireTimes n).stale = s.stale := by
  cases ht : s.timer with
  | none => simp [stale, queue_fireTimes_of_idle ht]
  | some t =>
      have hnew : ((List.range n).map fun i => t.tickAfter (t.fired + i)).filter
          (fun tick => !s.isCurrent tick) = [] := by
        rw [List.filter_eq_nil_iff]
        intro tick htick
        obtain ⟨i, -, rfl⟩ := List.mem_map.mp htick
        simp [h.isCurrent_tickAfter ht]
      simp [stale, queue_fireTimes ht, hnew]

/-!
# Operations keep a scheduler ready
-/

theorem Ready.start {s : Scheduler} (h : s.Ready) (hidle : s.isRunning = false) (now : Nat) :
    s.start now = .ok (s.spawn now) := by
  obtain ⟨period, hperiod⟩ := checked_eq_ok_iff.mpr ⟨h.multiplier_pos, h.interval_pos⟩
  simp [Scheduler.start, hidle, hperiod, Except.map]

theorem Ready.spawn {s : Scheduler} (h : s.Ready) (now : Nat) : (s.spawn now).Ready where
  multiplier_pos := h.multiplier_pos
  interval_pos := h.interval_pos
  generation_eq := by
    intro t ht
    cases ht
    rfl
  period_eq := by
    intro t ht
    cases ht
    rfl

theorem Ready.fireTimes {s : Scheduler} (h : s.Ready) (n : Nat) : (s.fireTimes n).Ready where
  multiplier_pos := by simpa using h.multiplier_pos
  interval_pos := by simpa using h.interval_pos
  generation_eq := by
    intro t ht
    rw [timer_fireTimes] at ht
    obtain ⟨u, hu, rfl⟩ := Option.map_eq_some_iff.mp ht
    simpa using h.generation_eq u hu
  period_eq := by
    intro t ht
    rw [timer_fireTimes] at ht
    obtain ⟨u, hu, rfl⟩ := Option.map_eq_some_iff.mp ht
    simpa using h.period_eq u hu

theorem Ready.of_queue {s : Scheduler} (h : s.Ready) (queue : List Tick) :
    { s with queue }.Ready where
  multiplier_pos := h.multiplier_pos
  interval_pos := h.interval_pos
  generation_eq := h.generation_eq
  period_eq := h.period_eq

theorem Ready.stop {s : Scheduler} (h : s.Ready) : s.stop.Ready := by
  cases hrunning : s.isRunning with
  | true =>
      rw [stop_of_running hrunning]
      exact
        { multiplier_pos := h.multiplier_pos
          interval_pos := h.interval_pos
          generation_eq := fun t ht => nomatch ht
          period_eq := fun t ht => nomatch ht }
  | false =>
      rw [stop_of_idle hrunning]
      exact h

theorem ready_setMultiplier {s s' : Scheduler} {now multiplier : Nat}
    (h : s.setMultiplier now multiplier = .ok s') : s'.Ready := by
  obtain ⟨hm, hp, rfl⟩ := setMultiplier_eq_ok h
  cases hrunning : s.isRunning with
  | true =>
      rw [if_pos rfl]
      exact
        { multiplier_pos := hm
          interval_pos := hp
          generation_eq := fun t ht => by cases ht; rfl
          period_eq := fun t ht => by cases ht; rfl }
  | false =>
      have hnone : s.timer = none := by simpa [isRunning] using hrunning
      rw [if_neg Bool.false_ne_true]
      exact
        { multiplier_pos := hm
          interval_pos := hp
          generation_eq := fun t ht => nomatch hnone.symm.trans ht
          period_eq := fun t ht => nomatch hnone.symm.trans ht }

end Scheduler
end TransitSim
