import TransitSim.Proofs.Tick.Operations

/-!
# Where ticks come from

Generations are meant to tell the ticks of the running timer from all others, although ticks carry
no trace of their timer but the generation, wait in the queue for any time, and may even come from
a timer that has been ended. A chronicle keeps beside the scheduler what generations only stand
for: all timers that were ever begun, and for each tick the timer that sent it. It is shown that a
tick is current exactly if its timer is the running one.

The invariant is that the generations of the timers grow from one to the next, that the running
timer is the latest one and has the generation of the scheduler, and that without a running timer
the generation of the scheduler is beyond them all.
-/

namespace TransitSim

def Timer.begun (t : Timer) : Timer :=
  { t with fired := 0 }

namespace Scheduler

inductive Action where
  | start (now : Nat)
  | stop
  | setMultiplier (now multiplier : Nat)
  | fire
  | straggle (timer time : Nat)
  | take

structure Sent where
  tick : Tick
  timer : Nat

structure Received where
  sent : Sent
  current : Bool
  running : Option Nat

/-- A scheduler with all that has happened to it. -/
structure Chronicle where
  scheduler : Scheduler
  timers : List Timer
  running : Option Nat
  waiting : List Sent
  received : List Received

namespace Chronicle

def new (base : Nat) : Chronicle := ⟨.new base, [], none, [], []⟩

def begin (c : Chronicle) (s : Scheduler) : Chronicle :=
  { c with
    scheduler := s
    timers := c.timers ++ s.timer.toList.map Timer.begun
    running := some c.timers.length }

def send (c : Chronicle) (s : Scheduler) (tick : Tick) (timer : Nat) : Chronicle :=
  { c with scheduler := s, waiting := c.waiting ++ [⟨tick, timer⟩] }

def step (c : Chronicle) : Action → Chronicle
  | .start now =>
      match c.scheduler.start now with
      | .ok s => c.begin s
      | .error _ => c
  | .stop => { c with scheduler := c.scheduler.stop, running := none }
  | .setMultiplier now multiplier =>
      match c.scheduler.setMultiplier now multiplier with
      | .ok s => if c.scheduler.isRunning then c.begin s else { c with scheduler := s }
      | .error _ => c
  | .fire =>
      match c.scheduler.timer, c.running with
      | some t, some i => c.send c.scheduler.fire (t.tickAfter t.fired) i
      | _, _ => c
  | .straggle i time =>
      match c.timers[i]? with
      | some t =>
          if c.running = some i then c
          else
            let tick : Tick := ⟨t.generation, time⟩
            c.send { c.scheduler with queue := c.scheduler.queue ++ [tick] } tick i
      | none => c
  | .take =>
      match c.scheduler.take?, c.waiting with
      | some (t, s), e :: rest =>
          { c with
            scheduler := s
            waiting := rest
            received := c.received ++ [⟨e, c.scheduler.isCurrent t, c.running⟩] }
      | _, _ => c

def run (c : Chronicle) (actions : List Action) : Chronicle :=
  actions.foldl step c

/-- All ticks that were ever sent and have been received or wait in the queue. -/
def sent (c : Chronicle) : List Sent :=
  c.received.map (·.sent) ++ c.waiting

/-!
# The invariant
-/

/-- Generations tell the timers of a chronicle apart. -/
structure Sound (c : Chronicle) : Prop where
  queue_eq : c.scheduler.queue = c.waiting.map (·.tick)
  growing : (c.timers.map (·.generation)).Pairwise (· < ·)
  bounded : ∀ t ∈ c.timers, t.generation ≤ c.scheduler.generation
  beyond : c.running = none → ∀ t ∈ c.timers, t.generation < c.scheduler.generation
  timer_eq : c.scheduler.timer.map Timer.begun = c.running.bind (c.timers[·]?)
  latest : ∀ i, c.running = some i → i + 1 = c.timers.length
  generation_eq : ∀ t, c.scheduler.timer = some t → t.generation = c.scheduler.generation
  origin : ∀ e ∈ c.sent, exists t, c.timers[e.timer]? = some t ∧
    t.generation = e.tick.generation
  judged : ∀ r ∈ c.received, r.current = true ↔ r.running = some r.sent.timer

theorem Sound.isRunning_eq {c : Chronicle} (h : c.Sound) :
    c.scheduler.isRunning = c.running.isSome := by
  have htimer := h.timer_eq
  cases hrunning : c.running with
  | none =>
      rw [hrunning] at htimer
      simp [isRunning, Option.map_eq_none_iff.mp htimer]
  | some i =>
      have hlt : i < c.timers.length := by
        have := h.latest i hrunning
        omega
      rw [hrunning, Option.bind_some, List.getElem?_eq_getElem hlt] at htimer
      obtain ⟨t, ht, -⟩ := Option.map_eq_some_iff.mp htimer
      simp [isRunning, ht]

theorem sound_new (base : Nat) : (new base).Sound where
  queue_eq := rfl
  growing := List.Pairwise.nil
  bounded := by simp [new]
  beyond := by simp [new]
  timer_eq := rfl
  latest := by simp [new]
  generation_eq := by simp [new, Scheduler.new]
  origin := by simp [new, sent]
  judged := by simp [new]

/-- Of all ticks ever sent, those of the running timer are current and no others. -/
theorem Sound.isCurrent_iff {c : Chronicle} (h : c.Sound) {e : Sent} (he : e ∈ c.sent) :
    c.scheduler.isCurrent e.tick = true ↔ c.running = some e.timer := by
  obtain ⟨t, ht, hgen⟩ := h.origin e he
  obtain ⟨hlt, rfl⟩ := List.getElem?_eq_some_iff.mp ht
  rw [Scheduler.isCurrent_iff, h.isRunning_eq, ← hgen]
  constructor
  · rintro ⟨hrunning, hcurrent⟩
    obtain ⟨i, hi⟩ := Option.isSome_iff_exists.mp hrunning
    have hlatest := h.latest i hi
    have hbound := h.bounded c.timers[i] (List.getElem_mem (by omega))
    rcases Nat.lt_or_ge e.timer i with hbefore | hafter
    · have hgrows := List.pairwise_iff_getElem.mp h.growing e.timer i
        (by simpa using hlt) (by simp; omega) hbefore
      simp only [List.getElem_map] at hgrows
      omega
    · rw [hi]
      congr 1
      omega
  · intro hi
    have htimer := h.timer_eq
    rw [hi, Option.bind_some, ht] at htimer
    obtain ⟨t', ht', hbegun⟩ := Option.map_eq_some_iff.mp htimer
    refine ⟨by rw [hi]; rfl, ?_⟩
    rw [← hbegun]
    exact h.generation_eq t' ht'

/-!
# What happens keeps the invariant
-/

theorem Sound.begin {c : Chronicle} (h : c.Sound) {s : Scheduler} {t : Timer}
    (hqueue : s.queue = c.scheduler.queue) (htimer : s.timer = some t)
    (hgen : t.generation = s.generation)
    (hbeyond : ∀ u ∈ c.timers, u.generation < s.generation) :
    (c.begin s).Sound := by
  have htimers : (c.begin s).timers = c.timers ++ [t.begun] := by simp [Chronicle.begin, htimer]
  constructor
  case queue_eq => exact hqueue.trans h.queue_eq
  case growing =>
    rw [htimers, List.map_append, List.pairwise_append]
    refine ⟨h.growing, List.pairwise_singleton _ _, ?_⟩
    intro a ha b hb
    obtain ⟨u, hu, rfl⟩ := List.mem_map.mp ha
    have := hbeyond u hu
    simp only [List.map_cons, List.map_nil, List.mem_singleton, Timer.begun] at hb
    omega
  case bounded =>
    intro u hu
    rw [htimers] at hu
    rcases List.mem_append.mp hu with hu | hu
    · exact Nat.le_of_lt (hbeyond u hu)
    · rw [List.mem_singleton.mp hu]
      exact Nat.le_of_eq hgen
  case beyond => simp [Chronicle.begin]
  case timer_eq =>
    rw [htimers]
    simp [Chronicle.begin, htimer]
  case latest =>
    intro i hi
    cases hi
    simp [htimers]
  case generation_eq =>
    intro u hu
    cases htimer.symm.trans hu
    exact hgen
  case origin =>
    intro e he
    obtain ⟨u, hu, hsent⟩ := h.origin e he
    refine ⟨u, ?_, hsent⟩
    rw [htimers, List.getElem?_append_left (List.getElem?_eq_some_iff.mp hu).1]
    exact hu
  case judged => exact h.judged

theorem Sound.send {c : Chronicle} (h : c.Sound) {s : Scheduler} {tick : Tick} {i : Nat} {t : Timer}
    (hs : s.generation = c.scheduler.generation)
    (htimer : s.timer.map Timer.begun = c.scheduler.timer.map Timer.begun)
    (hqueue : s.queue = c.scheduler.queue ++ [tick])
    (hi : c.timers[i]? = some t) (hgen : t.generation = tick.generation) :
    (c.send s tick i).Sound := by
  constructor
  case queue_eq => simp [Chronicle.send, hqueue, h.queue_eq]
  case growing => exact h.growing
  case bounded =>
    intro u hu
    exact hs ▸ h.bounded u hu
  case beyond =>
    intro hnone u hu
    exact hs ▸ h.beyond hnone u hu
  case timer_eq => exact htimer.trans h.timer_eq
  case latest => exact h.latest
  case generation_eq =>
    intro u hu
    have hmap : c.scheduler.timer.map Timer.begun = some u.begun := by
      rw [← htimer, show s.timer = some u from hu]
      rfl
    obtain ⟨u', hu', hbegun⟩ := Option.map_eq_some_iff.mp hmap
    have hsame : u'.generation = u.generation := by
      simpa [Timer.begun] using congrArg Timer.generation hbegun
    rw [← hsame, h.generation_eq u' hu']
    exact hs.symm
  case origin =>
    intro e he
    simp only [sent, Chronicle.send, ← List.append_assoc] at he
    rcases List.mem_append.mp he with he | he
    · exact h.origin e he
    · cases List.mem_singleton.mp he
      exact ⟨t, hi, hgen⟩
  case judged => exact h.judged

theorem Sound.stop {c : Chronicle} (h : c.Sound) :
    { c with scheduler := c.scheduler.stop, running := none }.Sound := by
  cases hrunning : c.scheduler.isRunning with
  | true =>
      rw [stop_of_running hrunning]
      constructor
      case queue_eq => exact h.queue_eq
      case growing => exact h.growing
      case bounded => exact fun u hu => Nat.le_succ_of_le (h.bounded u hu)
      case beyond => exact fun _ u hu => Nat.lt_succ_of_le (h.bounded u hu)
      case timer_eq => rfl
      case latest => exact fun i hi => nomatch hi
      case generation_eq => exact fun u hu => nomatch hu
      case origin => exact h.origin
      case judged => exact h.judged
  | false =>
      have hnone : c.running = none := by
        rw [h.isRunning_eq] at hrunning
        exact Option.not_isSome_iff_eq_none.mp (by simp [hrunning])
      rw [stop_of_idle hrunning, ← hnone]
      exact h

theorem Sound.start {c : Chronicle} (h : c.Sound) (now : Nat) : (c.step (.start now)).Sound := by
  simp only [step]
  split
  · rename_i s hstart
    obtain ⟨htimer, rfl⟩ := start_eq_ok hstart
    have hnone : c.running = none := by
      have := h.isRunning_eq
      simpa [isRunning, htimer] using this.symm
    exact h.begin rfl rfl rfl (h.beyond hnone)
  · exact h

theorem Sound.setMultiplier {c : Chronicle} (h : c.Sound) (now multiplier : Nat) :
    (c.step (.setMultiplier now multiplier)).Sound := by
  simp only [step]
  split
  · rename_i s hset
    obtain ⟨-, -, hs⟩ := setMultiplier_eq_ok hset
    cases hrunning : c.scheduler.isRunning with
    | true =>
        rw [hrunning, if_pos rfl] at hs
        subst hs
        rw [if_pos rfl]
        exact h.begin rfl rfl rfl fun u hu => Nat.lt_succ_of_le (h.bounded u hu)
    | false =>
        rw [hrunning, if_neg Bool.false_ne_true] at hs
        subst hs
        rw [if_neg Bool.false_ne_true]
        exact { h with }
  · exact h

theorem Sound.fire {c : Chronicle} (h : c.Sound) : (c.step .fire).Sound := by
  simp only [step]
  split
  · rename_i t i htimer hrunning
    have heq := h.timer_eq
    rw [hrunning, Option.bind_some, htimer, Option.map_some] at heq
    have hfire : c.scheduler.fire =
        { c.scheduler with
          timer := some { t with fired := t.fired + 1 }
          queue := c.scheduler.queue ++ [t.tickAfter t.fired] } := by
      simp [Scheduler.fire, htimer]
    refine h.send (t := t.begun) ?_ ?_ ?_ heq.symm rfl
    · rw [hfire]
    · simp [hfire, htimer, Timer.begun]
    · rw [hfire]
  · exact h

theorem Sound.straggle {c : Chronicle} (h : c.Sound) (i time : Nat) :
    (c.step (.straggle i time)).Sound := by
  simp only [step]
  split
  · rename_i t ht
    split
    · exact h
    · exact h.send rfl rfl rfl ht rfl
  · exact h

theorem Sound.take {c : Chronicle} (h : c.Sound) : (c.step .take).Sound := by
  simp only [step]
  split
  · rename_i t s e rest htake hwaiting
    have hqueue := h.queue_eq
    rw [hwaiting, List.map_cons] at hqueue
    simp only [Scheduler.take?, hqueue] at htake
    cases htake
    have hsent : e ∈ c.sent := by simp [sent, hwaiting]
    constructor
    case queue_eq => rfl
    case growing => exact h.growing
    case bounded => exact h.bounded
    case beyond => exact h.beyond
    case timer_eq => exact h.timer_eq
    case latest => exact h.latest
    case generation_eq => exact h.generation_eq
    case origin =>
      intro e' he'
      apply h.origin e'
      simpa [sent, hwaiting] using he'
    case judged =>
      intro r hr
      rcases List.mem_append.mp hr with hr | hr
      · exact h.judged r hr
      · cases List.mem_singleton.mp hr
        exact h.isCurrent_iff hsent
  · exact h

theorem Sound.step {c : Chronicle} (h : c.Sound) (a : Action) : (c.step a).Sound := by
  cases a with
  | start now => exact h.start now
  | stop => exact h.stop
  | setMultiplier now multiplier => exact h.setMultiplier now multiplier
  | fire => exact h.fire
  | straggle i time => exact h.straggle i time
  | take => exact h.take

theorem Sound.run {c : Chronicle} (h : c.Sound) (actions : List Action) :
    (c.run actions).Sound := by
  induction actions generalizing c with
  | nil => exact h
  | cons a rest ih => exact ih (h.step a)

/-!
# Timers that have ended
-/

theorem step_running (c : Chronicle) (a : Action) :
    c.timers.length ≤ (c.step a).timers.length ∧
      ∀ i, (c.step a).running = some i → c.running = some i ∨ i = c.timers.length := by
  have hbegin : ∀ s, c.timers.length ≤ (c.begin s).timers.length ∧
      ∀ i, (c.begin s).running = some i → c.running = some i ∨ i = c.timers.length := by
    intro s
    refine ⟨by simp [Chronicle.begin], fun i hi => Or.inr ?_⟩
    exact (Option.some.inj hi).symm
  cases a with
  | stop => exact ⟨Nat.le_refl _, fun i hi => nomatch hi⟩
  | start now =>
      simp only [step]
      split
      · exact hbegin _
      · exact ⟨Nat.le_refl _, fun i hi => Or.inl hi⟩
  | setMultiplier now multiplier =>
      simp only [step]
      split
      · split
        · exact hbegin _
        · exact ⟨Nat.le_refl _, fun i hi => Or.inl hi⟩
      · exact ⟨Nat.le_refl _, fun i hi => Or.inl hi⟩
  | fire => simp only [step]; split <;> exact ⟨Nat.le_refl _, fun i hi => Or.inl hi⟩
  | straggle i time =>
      simp only [step]
      split
      · split <;> exact ⟨Nat.le_refl _, fun i hi => Or.inl hi⟩
      · exact ⟨Nat.le_refl _, fun i hi => Or.inl hi⟩
  | take => simp only [step]; split <;> exact ⟨Nat.le_refl _, fun i hi => Or.inl hi⟩

theorem run_running_ne (c : Chronicle) (actions : List Action) {i : Nat} (hi : i < c.timers.length)
    (h : c.running ≠ some i) : (c.run actions).running ≠ some i := by
  induction actions generalizing c with
  | nil => exact h
  | cons a rest ih =>
      obtain ⟨hlength, hrunning⟩ := step_running c a
      refine ih (c.step a) (Nat.lt_of_lt_of_le hi hlength) ?_
      intro hstep
      rcases hrunning i hstep with hsame | hnew
      · exact h hsame
      · omega

/-- Whether something ends the running timer: a stop, or a change of the multiplier that is not
refused. -/
def Ends (c : Chronicle) : Action → Prop
  | .stop => True
  | .setMultiplier now multiplier => exists s, c.scheduler.setMultiplier now multiplier = .ok s
  | _ => False

theorem Sound.running_step_ne {c : Chronicle} (h : c.Sound) {a : Action} (ha : c.Ends a) {i : Nat}
    (hi : i < c.timers.length) : (c.step a).running ≠ some i := by
  cases a with
  | stop => simp [Chronicle.step]
  | setMultiplier now multiplier =>
      obtain ⟨s, hs⟩ := ha
      simp only [Chronicle.step, hs]
      split
      · simp only [Chronicle.begin, ne_eq, Option.some.injEq]
        omega
      · rename_i hidle
        rw [h.isRunning_eq, Option.not_isSome_iff_eq_none] at hidle
        simp [hidle]
  | start now => cases ha
  | fire => cases ha
  | straggle i time => cases ha
  | take => cases ha

/-- Whatever happens to a scheduler, in any order: the queue holds the ticks sent and not received;
the running timer is the latest one; of all ticks ever sent exactly those of the running timer are
current, now as at their reception, and none while no timer runs; and once a stop or a new
multiplier has ended the timers so far, no tick of theirs will ever be current again, whether it
was sent before that or after. -/
theorem isCurrent_iff_running (base : Nat) (actions : List Action) :
    let c := (new base).run actions
    c.scheduler.queue = c.waiting.map (·.tick) ∧
      c.scheduler.timer.map Timer.begun = c.running.bind (c.timers[·]?) ∧
      (∀ i, c.running = some i → i + 1 = c.timers.length) ∧
      (∀ e ∈ c.sent, c.scheduler.isCurrent e.tick = true ↔ c.running = some e.timer) ∧
      (∀ r ∈ c.received, r.current = true ↔ r.running = some r.sent.timer) ∧
      (c.scheduler.isRunning = false → ∀ e ∈ c.sent, c.scheduler.isCurrent e.tick = false) ∧
      ∀ a, c.Ends a → ∀ later, ∀ e ∈ ((c.step a).run later).sent, e.timer < c.timers.length →
        ((c.step a).run later).scheduler.isCurrent e.tick = false := by
  intro c
  have h : c.Sound := (sound_new base).run actions
  refine ⟨h.queue_eq, h.timer_eq, h.latest, fun e he => h.isCurrent_iff he, h.judged, ?_, ?_⟩
  · intro hidle e he
    simp [isCurrent, hidle]
  · intro a ha later e he hbefore
    have hlater := (h.step a).run later
    have hlength := (step_running c a).1
    rw [← Bool.not_eq_true, hlater.isCurrent_iff he]
    exact run_running_ne (c.step a) later (Nat.lt_of_lt_of_le hbefore hlength)
      (h.running_step_ne ha hbefore)

end Chronicle
end Scheduler
end TransitSim
