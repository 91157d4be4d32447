import TransitSim.Proofs.Run.InTurn

/-!
# What waits costs steps

The load of a simulation counts the steps that it takes to be done with all that waits: stale ticks
are dropped, answers are taken, work is done, and the next tick is had, for which the timer may have
to be waited for. Doing any of this lowers the load; only a tick that moves the vehicle adds to it,
by no more than the work and the answer that it leaves.
-/

namespace TransitSim
namespace Scheduler

def hasCurrent (s : Scheduler) : Bool :=
  s.queue.any s.isCurrent

theorem hasCurrent_of_nil {s : Scheduler} (h : s.queue = []) : s.hasCurrent = false := by
  simp [hasCurrent, h]

theorem hasCurrent_fireTimes {s : Scheduler} (h : s.hasCurrent = true) (n : Nat) :
    (s.fireTimes n).hasCurrent = true := by
  have hsame : (s.fireTimes n).isCurrent = s.isCurrent := funext (isCurrent_fireTimes s n)
  cases htimer : s.timer with
  | none =>
      rw [hasCurrent, queue_fireTimes_of_idle htimer, hsame]
      exact h
  | some t =>
      rw [hasCurrent, queue_fireTimes htimer, hsame, List.any_append, Bool.or_eq_true]
      exact Or.inl h

theorem Ready.hasCurrent_fireTimes {s : Scheduler} (h : s.Ready) {t : Timer}
    (ht : s.timer = some t) {n : Nat} (hn : 0 < n) : (s.fireTimes n).hasCurrent = true := by
  have hsame : (s.fireTimes n).isCurrent = s.isCurrent := funext (isCurrent_fireTimes s n)
  rw [hasCurrent, queue_fireTimes ht, hsame, List.any_append, Bool.or_eq_true, List.any_eq_true,
    List.any_eq_true]
  right
  exact ⟨_, List.mem_map_of_mem (List.mem_range.mpr hn), h.isCurrent_tickAfter ht _⟩

theorem Ready.dueBy_pos {s : Scheduler} (h : s.Ready) {t : Timer} (ht : s.timer = some t)
    {time : Nat} (htime : t.due ≤ time) : 0 < s.dueBy time := by
  have hperiod : 0 < t.period := by
    rw [h.period_eq t ht]
    exact h.interval_pos
  have hfired : t.fired + 1 ≤ (time - t.start) / t.period := by
    rw [Nat.le_div_iff_mul_le hperiod]
    simp only [Timer.due, Timer.dueAfter] at htime
    omega
  simp only [dueBy, ht, Timer.dueBy]
  omega

end Scheduler

namespace Job

def cost : Job → Nat
  | fetch _ => 3
  | report _ | alarm | void => 1

def costs : List Job → Nat
  | [] => 0
  | job :: rest => job.cost + costs rest

theorem costs_append (jobs others : List Job) :
    costs (jobs ++ others) = costs jobs + costs others := by
  induction jobs with
  | nil => exact (Nat.zero_add _).symm
  | cons job rest ih => rw [List.cons_append, costs, costs, ih, Nat.add_assoc]

theorem costs_le (jobs : List Job) : costs jobs ≤ 3 * jobs.length := by
  induction jobs with
  | nil => exact Nat.le_refl 0
  | cons job rest ih =>
      have hjob : job.cost ≤ 3 := by cases job <;> simp [cost]
      rw [costs, List.length_cons]
      omega

end Job

namespace Simulation

def tickCost (m : Simulation) : Nat :=
  if m.session.scheduler.hasCurrent then 0
  else if 0 < m.session.scheduler.dueBy m.clock.now ∧ m.session.jobs.any Job.isAlarm then 1
  else 3

def load (m : Simulation) : Nat :=
  2 * m.session.scheduler.stale.length + 2 * m.session.answers.length +
    Job.costs m.session.jobs + m.tickCost

theorem tickCost_le (m : Simulation) : m.tickCost ≤ 3 := by
  simp only [tickCost]
  split
  · exact Nat.zero_le 3
  · split <;> decide

theorem load_le (m : Simulation) :
    m.load ≤ 2 * m.session.scheduler.queue.length + 2 * m.session.answers.length +
      3 * m.session.jobs.length + 3 := by
  have hstale : m.session.scheduler.stale.length ≤ m.session.scheduler.queue.length :=
    List.length_filter_le _ _
  have hjobs := Job.costs_le m.session.jobs
  have htick := m.tickCost_le
  rw [load]
  omega

theorem tickCost_of_hasCurrent {m : Simulation} (h : m.session.scheduler.hasCurrent = true) :
    m.tickCost = 0 := by
  simp [tickCost, h]

theorem load_cons (m : Simulation) {job : Job} (h : job.isAlarm = false) :
    (m.withJobs (job :: m.session.jobs)).load = m.load + job.cost := by
  have htick : (m.withJobs (job :: m.session.jobs)).tickCost = m.tickCost := by
    simp only [tickCost, withJobs, List.any_cons, h, Bool.false_or]
  have hsum : Job.costs (m.withJobs (job :: m.session.jobs)).session.jobs =
      job.cost + Job.costs m.session.jobs := rfl
  have hrest : (m.withJobs (job :: m.session.jobs)).session.scheduler.stale =
      m.session.scheduler.stale ∧
        (m.withJobs (job :: m.session.jobs)).session.answers = m.session.answers := ⟨rfl, rfl⟩
  rw [load, htick, hsum, hrest.1, hrest.2, load]
  omega

theorem load_ring {m : Simulation} (hready : m.session.scheduler.Ready) :
    m.ring.load ≤ (m.withJobs (.alarm :: m.session.jobs)).load ∧
      (m.session.scheduler.hasCurrent = false →
        m.ring.load < (m.withJobs (.alarm :: m.session.jobs)).load) := by
  have hstale : m.ring.session.scheduler.stale = m.session.scheduler.stale :=
    hready.stale_fireTimes _
  have hjobs : Job.costs m.ring.session.jobs ≤ Job.costs m.session.jobs + 1 := by
    simp only [ring]
    split
    · rw [Job.costs_append]
      exact Nat.le_refl _
    · exact Nat.le_succ _
  have hanswers : m.ring.session.answers = m.session.answers := rfl
  have hline : (m.withJobs (.alarm :: m.session.jobs)).load =
      2 * m.session.scheduler.stale.length + 2 * m.session.answers.length +
        (1 + Job.costs m.session.jobs) +
          (m.withJobs (.alarm :: m.session.jobs)).tickCost := rfl
  rw [hline, load, hstale, hanswers]
  cases hcurrent : m.session.scheduler.hasCurrent with
  | true =>
      have hring : m.ring.session.scheduler.hasCurrent = true :=
        Scheduler.hasCurrent_fireTimes hcurrent _
      rw [tickCost_of_hasCurrent hring]
      exact ⟨by omega, fun h => absurd h Bool.noConfusion⟩
  | false =>
      by_cases hdue : 0 < m.session.scheduler.dueBy m.clock.now
      · obtain ⟨t, ht⟩ : exists t, m.session.scheduler.timer = some t := by
          cases ht : m.session.scheduler.timer with
          | none => simp [Scheduler.dueBy, ht] at hdue
          | some t => exact ⟨t, rfl⟩
        have hring : m.ring.session.scheduler.hasCurrent = true :=
          hready.hasCurrent_fireTimes ht (Nat.lt_min.mpr ⟨by decide, hdue⟩)
        have hcost : (m.withJobs (.alarm :: m.session.jobs)).tickCost = 1 := by
          show (if m.session.scheduler.hasCurrent then 0
            else if 0 < m.session.scheduler.dueBy m.clock.now ∧ true = true then 1 else 3) = 1
          simp [hcurrent, hdue]
        rw [tickCost_of_hasCurrent hring, hcost]
        omega
      · have hnone : m.session.scheduler.dueBy m.clock.now = 0 := Nat.eq_zero_of_not_pos hdue
        have hsame : m.ring.session.jobs = m.session.jobs := by
          simp [ring, hnone, Scheduler.burst]
        have hcost : (m.withJobs (.alarm :: m.session.jobs)).tickCost = 3 := by
          show (if m.session.scheduler.hasCurrent then 0
            else if 0 < m.session.scheduler.dueBy m.clock.now ∧ true = true then 1 else 3) = 3
          simp [hcurrent, hdue]
        rw [hsame, hcost]
        have hle := m.ring.tickCost_le
        omega

theorem load_perform {m : Simulation} (hready : m.session.scheduler.Ready) (job : Job) :
    (m.perform job).load ≤ (m.withJobs (job :: m.session.jobs)).load ∧
      (m.session.scheduler.hasCurrent = false →
        (m.perform job).load < (m.withJobs (job :: m.session.jobs)).load) := by
  cases job with
  | alarm => exact load_ring hready
  | void =>
      have hcost := m.load_cons (rfl : Job.void.isAlarm = false)
      simp only [perform, hcost, Job.cost]
      omega
  | report r =>
      have hcost := m.load_cons (rfl : (Job.report r).isAlarm = false)
      have hsame : (m.perform (.report r)).load = m.load := by
        simp only [perform]
        split <;> rfl
      rw [hsame, hcost, Job.cost]
      omega
  | fetch route =>
      have hcost := m.load_cons (rfl : (Job.fetch route).isAlarm = false)
      have htick : (m.perform (.fetch route)).tickCost = m.tickCost := rfl
      have hanswers : (m.perform (.fetch route)).session.answers.length =
          m.session.answers.length + 1 := List.length_append
      have hmore : (m.perform (.fetch route)).load = m.load + 2 := by
        rw [load, htick, hanswers, load]
        show 2 * m.session.scheduler.stale.length + 2 * (m.session.answers.length + 1) +
          Job.costs m.session.jobs + m.tickCost = _
        omega
      rw [hmore, hcost, Job.cost]
      omega

theorem load_foldl_perform {m : Simulation} (hready : m.session.scheduler.Ready) (jobs : List Job) :
    (jobs.foldl perform m).load ≤ (m.withJobs (jobs ++ m.session.jobs)).load ∧
      (jobs ≠ [] → m.session.scheduler.hasCurrent = false →
        (jobs.foldl perform m).load < (m.withJobs (jobs ++ m.session.jobs)).load) := by
  induction jobs generalizing m with
  | nil => exact ⟨Nat.le_refl _, fun h => absurd rfl h⟩
  | cons job jobs ih =>
      have hrest := (ih ((keeps_perform m job).ready hready)).1
      have hline : (m.perform job).withJobs (jobs ++ (m.perform job).session.jobs) =
          (m.withJobs (jobs ++ m.session.jobs)).perform job :=
        (perform_append m jobs m.session.jobs job).symm
      rw [hline] at hrest
      have hfirst := load_perform (m := m.withJobs (jobs ++ m.session.jobs)) hready job
      exact ⟨Nat.le_trans hrest hfirst.1, fun _ h => Nat.lt_of_le_of_lt hrest (hfirst.2 h)⟩

theorem load_work {m : Simulation} (hready : m.session.scheduler.Ready) :
    m.work.load ≤ m.load ∧
      (m.hasWork = true → m.session.scheduler.hasCurrent = false → m.work.load < m.load) := by
  have hsplit : (m.withJobs (m.session.jobs.drop batch)).withJobs
      (m.session.jobs.take batch ++ m.session.jobs.drop batch) = m := by
    rw [List.take_append_drop]
    rfl
  have hdone := load_foldl_perform (m := m.withJobs (m.session.jobs.drop batch)) hready
    (m.session.jobs.take batch)
  have hleft : (m.withJobs (m.session.jobs.drop batch)).session.jobs = m.session.jobs.drop batch :=
    rfl
  rw [hleft, hsplit] at hdone
  refine ⟨hdone.1, fun hwork => hdone.2 ?_⟩
  cases hjobs : m.session.jobs with
  | nil => simp [hasWork, hjobs] at hwork
  | cons job rest => simp [batch]

theorem load_withQueue {m : Simulation} {tick : Tick} {rest : List Tick}
    (hqueue : m.session.scheduler.queue = tick :: rest)
    (hstale : m.session.scheduler.isCurrent tick = false) :
    (m.withQueue rest).load + 2 = m.load := by
  have hstales : m.session.scheduler.stale = tick :: (m.withQueue rest).session.scheduler.stale :=
    Scheduler.stale_of_not_isCurrent hqueue hstale
  have hcurrent : (m.withQueue rest).session.scheduler.hasCurrent =
      m.session.scheduler.hasCurrent := by
    rw [Scheduler.hasCurrent, Scheduler.hasCurrent, hqueue, List.any_cons, hstale, Bool.false_or]
    rfl
  have htick : (m.withQueue rest).tickCost = m.tickCost := by
    rw [tickCost, hcurrent]
    rfl
  rw [load, load, htick, hstales, List.length_cons]
  show 2 * (m.withQueue rest).session.scheduler.stale.length + 2 * m.session.answers.length +
    Job.costs m.session.jobs + m.tickCost + 2 = _
  omega

theorem load_tick {m : Simulation} {tick : Tick} {rest : List Tick} {u : Update} {c : Course}
    (hqueue : m.session.scheduler.queue = tick :: rest)
    (hcurrent : m.session.scheduler.isCurrent tick = true)
    (hcourse : m.session.course.tick = .ok (u, c)) :
    (m.withQueue rest).tick.2.load ≤ m.load + 7 := by
  have hmoved := (tick_eq_ok (m := m.withQueue rest) hcourse).2.2
  have hstale : (m.withQueue rest).tick.2.session.scheduler.stale = m.session.scheduler.stale := by
    rw [hmoved, Scheduler.stale_of_isCurrent hqueue hcurrent]
    rfl
  have hjobs : Job.costs (m.withQueue rest).tick.2.session.jobs =
      Job.costs m.session.jobs + 4 := by
    rw [hmoved]
    exact Job.costs_append _ _
  have hanswers : (m.withQueue rest).tick.2.session.answers = m.session.answers := by
    rw [hmoved]
    rfl
  have htick := (m.withQueue rest).tick.2.tickCost_le
  rw [load, load, hstale, hjobs, hanswers]
  omega

theorem load_takeAnswer {m m' : Simulation} (hsome : m.session.answers ≠ [])
    (h : m.takeAnswer = some m') : m'.load + 2 = m.load := by
  cases hanswers : m.session.answers with
  | nil => exact absurd hanswers hsome
  | cons a rest =>
      rcases takeAnswer_eq hanswers h with ⟨hclock, -, hsession⟩
      have htick : m'.tickCost = m.tickCost := by
        rw [tickCost, hclock, hsession]
        rfl
      rw [load, load, htick, hsession, hanswers, List.length_cons]
      show 2 * m.session.scheduler.stale.length + 2 * rest.length +
        Job.costs m.session.jobs + m.tickCost + 2 = _
      omega

theorem load_passTo {m : Simulation} (hready : m.session.scheduler.Ready) {time : Nat}
    (hqueue : m.session.scheduler.queue = []) (hjobs : m.session.jobs = [])
    (hwake : m.session.scheduler.nextWake? = some time) : (m.passTo time).load < m.load := by
  rcases Option.map_eq_some_iff.mp hwake with ⟨t, ht, htime⟩
  have hcurrent : m.session.scheduler.hasCurrent = false := Scheduler.hasCurrent_of_nil hqueue
  have hlate : time ≤ max m.clock.now time := Nat.le_max_right _ _
  have hdue : 0 < m.session.scheduler.dueBy (max m.clock.now time) := by
    apply hready.dueBy_pos ht
    calc t.due ≤ Clock.wake t.due := Clock.le_wake _
      _ = time := htime
      _ ≤ max m.clock.now time := hlate
  have hpassed : m.passTo time =
      { m.withJobs [.alarm] with clock := m.clock.forwardTo time } := by
    simp [passTo, isRinging, hjobs, hwake, Clock.forwardTo, hlate, withJobs]
  have hbefore : m.tickCost = 3 := by
    simp [tickCost, hcurrent, hjobs]
  have hafter : (m.passTo time).tickCost = 1 := by
    rw [hpassed]
    simp [tickCost, withJobs, hcurrent, Clock.forwardTo, hdue, Job.isAlarm]
  have hcost : Job.costs (m.passTo time).session.jobs = 1 := by
    rw [hpassed]
    rfl
  have hrest : (m.passTo time).session.scheduler = m.session.scheduler ∧
      (m.passTo time).session.answers = m.session.answers := by
    rw [hpassed]
    exact ⟨rfl, rfl⟩
  rw [load, load, hafter, hcost, hbefore, hjobs, hrest.1, hrest.2, Job.costs]
  omega

end Simulation
end TransitSim
