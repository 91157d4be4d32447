import TransitSim.Proofs.Session.Conduct
import TransitSim.Proofs.Tick.Past

/-!
# Sessions with a past

What a session has been through may stay behind in it: a scheduler with a past, reports that have
not been made yet, the names of stops. The same goes for its surroundings: a receiver that has
reports already, a journal with lines. None of this has an effect on what the session does, and all
of it stays behind.
-/

namespace TransitSim

section Rel

variable {A B : Type} {R : A → B → Prop}

theorem exists_of_rel_some {a : Option A} {b : B} (h : Option.Rel R a (some b)) :
    exists x, a = some x ∧ R x b := by
  cases h with
  | some hR => exact ⟨_, rfl, hR⟩

theorem exists_of_some_rel {a : A} {b : Option B} (h : Option.Rel R (some a) b) :
    exists y, b = some y ∧ R a y := by
  cases h with
  | some hR => exact ⟨_, rfl, hR⟩

theorem eq_none_of_none_rel {b : Option B} (h : Option.Rel R none b) : b = none := by
  cases h
  rfl

end Rel

/-- Whether work has nothing to do with the session any more. -/
def Job.isInert : Job → Bool
  | report _ | void => true
  | fetch _ | alarm => false

/-- What has stayed behind in a session: ticks of earlier generations, and work that has nothing to
do with it any more. -/
structure Past where
  generations : Nat
  ticks : List Tick
  jobs : List Job
  names : Registry String
  ticks_lt : ∀ t ∈ ticks, t.generation < generations
  jobs_inert : ∀ job ∈ jobs, job.isInert = true

def Past.dropTick (p : Past) : Past :=
  { p with
    ticks := p.ticks.tail
    ticks_lt := fun t ht => p.ticks_lt t (List.mem_of_mem_tail ht) }

def Past.dropJob (p : Past) (index : Nat) : Past :=
  { p with
    jobs := p.jobs.eraseIdx index
    jobs_inert := fun job hjob => p.jobs_inert job (List.mem_of_mem_eraseIdx hjob) }

theorem Past.map_jobs (p : Past) {f : Job → Job} (hf : ∀ job, job.isInert = true → f job = job) :
    p.jobs.map f = p.jobs :=
  (List.map_congr_left fun job hjob => hf job (p.jobs_inert job hjob)).trans (List.map_id _)

def Past.none (names : Registry String) : Past where
  generations := 0
  ticks := []
  jobs := []
  names
  ticks_lt := fun _ ht => nomatch ht
  jobs_inert := fun _ hjob => nomatch hjob

namespace Session

def after (p : Past) (s : Session) : Session :=
  { s with
    scheduler := s.scheduler.after p.generations p.ticks
    names := p.names
    jobs := p.jobs ++ s.jobs }

section After

variable (p : Past) (s : Session)

theorem after_none : s.after (.none s.names) = s := by
  simp [after, Past.none, Scheduler.after_zero]

@[simp] theorem isRunning_after : (s.after p).isRunning = s.isRunning :=
  Scheduler.isRunning_after ..

@[simp] theorem view_after : (s.after p).view = s.view := by
  simp [view, after, isRunning]

/-!
# What a user does
-/

theorem any_isAlarm_after : (s.after p).jobs.any Job.isAlarm = s.jobs.any Job.isAlarm := by
  have hold : p.jobs.any Job.isAlarm = false := by
    rw [List.any_eq_false]
    intro job hjob halarm
    have hinert := p.jobs_inert job hjob
    cases job with
    | alarm => cases hinert
    | report r => cases halarm
    | fetch route => cases halarm
    | void => cases halarm
  rw [after, List.any_append, hold, Bool.false_or]

theorem jobsAfterStop_after : (s.after p).jobsAfterStop = p.jobs ++ s.jobsAfterStop := by
  have hold : p.jobs.map Job.withoutAlarm = p.jobs :=
    p.map_jobs fun job hinert => by cases job <;> first | rfl | cases hinert
  rw [jobsAfterStop, jobsAfterStop, isRunning_after, any_isAlarm_after]
  split
  · rfl
  · split
    · rw [after, List.map_append, hold]
    · rw [after, List.append_assoc]

theorem stopTimer_after : (s.after p).stopTimer = s.stopTimer.after p := by
  rw [stopTimer, jobsAfterStop_after]
  simp only [after, Scheduler.stop_after]
  rfl

theorem start_after (now : Nat) :
    (s.after p).start now = ((s.start now).1.map (after p), (s.start now).2) := by
  have hstart := Scheduler.start_after p.generations p.ticks s.scheduler now
  have hremarks := Scheduler.startRemarks_after p.generations p.ticks s.scheduler
  have hremark : (s.after p).startRemark = s.startRemark := rfl
  have hscheduler : (s.after p).scheduler = s.scheduler.after p.generations p.ticks := rfl
  rw [start, start, hscheduler, hstart, hremarks, hremark]
  cases s.scheduler.start now with
  | error e => rfl
  | ok scheduler =>
      simp only [Except.map, after, List.append_assoc]

theorem setMultiplier_after (now multiplier : Nat) :
    (s.after p).setMultiplier now multiplier = (s.setMultiplier now multiplier).map (after p) := by
  have hset := Scheduler.setMultiplier_after p.generations p.ticks s.scheduler now multiplier
  have hscheduler : (s.after p).scheduler = s.scheduler.after p.generations p.ticks := rfl
  rw [setMultiplier, setMultiplier, hscheduler, hset, isRunning_after, jobsAfterStop_after]
  cases s.scheduler.setMultiplier now multiplier with
  | error e => rfl
  | ok scheduler =>
      simp only [Except.map, after]
      split
      · rw [List.append_assoc]
      · rfl

theorem reset_after : (s.after p).reset = (s.reset.1.after p, s.reset.2) := by
  have hold : p.jobs.map Job.withoutFetch = p.jobs :=
    p.map_jobs fun job hinert => by cases job <;> first | rfl | cases hinert
  rw [reset, reset, stopTimer_after, jobsAfterStop_after, List.map_append, hold]
  rfl

theorem tick_after (time : Calendar.Instant) :
    (s.after p).tick time =
      ((s.tick time).1, (s.tick time).2.1.after p, (s.tick time).2.2) := by
  have hsource : (s.after p).source = s.source := rfl
  rw [tick, tick, hsource]
  cases s.source.next with
  | ok next => simp only [after, List.append_assoc]
  | error e =>
      simp only [stopTimer_after]
      split <;> rfl

theorem seek_after (time : Calendar.Instant) (index : Nat) :
    (s.after p).seek time index = (s.seek time index).map fun (u, s) => (u, s.after p) := by
  have hsource : (s.after p).source = s.source := rfl
  rw [seek, seek, hsource]
  cases s.source.seek index with
  | error e => rfl
  | ok next => simp only [Except.map, after, List.append_assoc]

theorem observe_after (snapshots : List Snapshot) (observed : Calendar.Instant) :
    (s.after p).observe snapshots observed =
      (s.observe snapshots observed).map fun (s, lines) =>
        (s.after { p with names := learnNames p.names snapshots }, lines) := by
  have htracker : (s.after p).tracker = s.tracker := rfl
  rw [observe, observe, htracker]
  cases s.tracker.respond snapshots observed <;> rfl

end After
end Session

namespace Simulation

/-- Whether a simulation is another one with a past. -/
structure HasPast (p : Past) (m₀ m : Simulation) : Prop where
  session : m.session = m₀.session.after p
  clock : m.clock = m₀.clock
  feed : m.feed = m₀.feed

def Resembles (m₀ m : Simulation) : Prop :=
  exists p, HasPast p m₀ m

theorem resembles_self (m : Simulation) : Resembles m m :=
  ⟨.none m.session.names, (Session.after_none _).symm, rfl, rfl⟩

section HasPast

variable {p : Past} {m₀ m : Simulation}

theorem HasPast.view (h : HasPast p m₀ m) : m.session.view = m₀.session.view := by
  rw [h.session, Session.view_after]

/-!
# What a user does
-/

theorem HasPast.tick (h : HasPast p m₀ m) :
    m.tick.1 = m₀.tick.1 ∧ HasPast p m₀.tick.2 m.tick.2 := by
  rcases m with ⟨session, clock, sink, feed, journal⟩
  rcases h with ⟨rfl, rfl, rfl⟩
  simp only [Simulation.tick, Session.tick_after]
  exact ⟨trivial, rfl, rfl, rfl⟩

theorem HasPast.seek (h : HasPast p m₀ m) (index : Nat) :
    (m.seek index).1 = (m₀.seek index).1 ∧ HasPast p (m₀.seek index).2 (m.seek index).2 := by
  rcases m with ⟨session, clock, sink, feed, journal⟩
  rcases h with ⟨rfl, rfl, rfl⟩
  simp only [Simulation.seek, Session.seek_after]
  cases m₀.session.seek m₀.clock.instant index <;> exact ⟨rfl, rfl, rfl, rfl⟩

theorem HasPast.start (h : HasPast p m₀ m) :
    m.start.1 = m₀.start.1 ∧ HasPast p m₀.start.2 m.start.2 := by
  rcases m with ⟨session, clock, sink, feed, journal⟩
  rcases h with ⟨rfl, rfl, rfl⟩
  simp only [Simulation.start, Session.start_after]
  rcases m₀.session.start m₀.clock.now with ⟨result, lines⟩
  cases result <;> exact ⟨rfl, rfl, rfl, rfl⟩

theorem HasPast.stop (h : HasPast p m₀ m) : HasPast p m₀.stop m.stop := by
  rcases m with ⟨session, clock, sink, feed, journal⟩
  rcases h with ⟨rfl, rfl, rfl⟩
  exact ⟨Session.stopTimer_after p m₀.session, rfl, rfl⟩

theorem HasPast.setMultiplier (h : HasPast p m₀ m) (multiplier : Nat) :
    (m.setMultiplier multiplier).1 = (m₀.setMultiplier multiplier).1 ∧
      HasPast p (m₀.setMultiplier multiplier).2 (m.setMultiplier multiplier).2 := by
  rcases m with ⟨session, clock, sink, feed, journal⟩
  rcases h with ⟨rfl, rfl, rfl⟩
  simp only [Simulation.setMultiplier, Session.setMultiplier_after]
  cases m₀.session.setMultiplier m₀.clock.now multiplier <;> exact ⟨rfl, rfl, rfl, rfl⟩

theorem HasPast.reset (h : HasPast p m₀ m) : HasPast p m₀.reset m.reset := by
  rcases m with ⟨session, clock, sink, feed, journal⟩
  rcases h with ⟨rfl, rfl, rfl⟩
  exact ⟨congrArg Prod.fst (Session.reset_after p m₀.session), rfl, rfl⟩

theorem HasPast.observe (h : HasPast p m₀ m) (snapshots : List Snapshot)
    (observed : Calendar.Instant) :
    Option.Rel Resembles (m₀.observe snapshots observed) (m.observe snapshots observed) := by
  rcases m with ⟨session, clock, sink, feed, journal⟩
  rcases h with ⟨rfl, rfl, rfl⟩
  simp only [Simulation.observe, Session.observe_after]
  cases m₀.session.observe snapshots observed with
  | none => exact .none
  | some told => exact .some ⟨_, rfl, rfl, rfl⟩

/-!
# What happens to a session
-/

theorem HasPast.takeAnswer (h : HasPast p m₀ m) :
    Option.Rel Resembles m₀.takeAnswer m.takeAnswer := by
  rcases m with ⟨session, clock, sink, feed, journal⟩
  rcases h with ⟨rfl, rfl, rfl⟩
  have hanswers : (m₀.session.after p).answers = m₀.session.answers := rfl
  cases hcase : m₀.session.answers with
  | nil =>
      simp only [Simulation.takeAnswer, hanswers, hcase]
      exact .some ⟨p, rfl, rfl, rfl⟩
  | cons a rest =>
      simp only [Simulation.takeAnswer, hanswers, hcase, Session.apply]
      cases a.result with
      | error e => exact .some ⟨p, rfl, rfl, rfl⟩
      | ok snapshots =>
          have hobserve : ({ m₀.session.after p with answers := rest } : Session).observe snapshots
              a.observed = _ :=
            Session.observe_after p { m₀.session with answers := rest } snapshots a.observed
          simp only [hobserve]
          cases ({ m₀.session with answers := rest } : Session).observe snapshots a.observed with
          | none => exact .none
          | some told => exact .some ⟨_, rfl, rfl, rfl⟩

theorem HasPast.passTo (h : HasPast p m₀ m) (time : Nat) :
    HasPast p (m₀.passTo time) (m.passTo time) := by
  rcases m with ⟨session, clock, sink, feed, journal⟩
  rcases h with ⟨rfl, rfl, rfl⟩
  have hwake : (m₀.session.after p).scheduler.nextWake? = m₀.session.scheduler.nextWake? :=
    Scheduler.nextWake?_after ..
  have hring : ∀ now, isRinging ⟨m₀.session.after p, now, sink, m₀.feed, journal⟩ =
      isRinging { m₀ with clock := now } := by
    intro now
    simp only [isRinging, Session.any_isAlarm_after, hwake]
  simp only [Simulation.passTo, hring]
  cases isRinging { m₀ with clock := m₀.clock.forwardTo time } with
  | true => exact ⟨by simp [Session.after], rfl, rfl⟩
  | false => exact ⟨rfl, rfl, rfl⟩

theorem HasPast.ring (h : HasPast p m₀ m) : HasPast p m₀.ring m.ring := by
  rcases m with ⟨session, clock, sink, feed, journal⟩
  rcases h with ⟨rfl, rfl, rfl⟩
  have hdue : (m₀.session.after p).scheduler.dueBy m₀.clock.now =
      m₀.session.scheduler.dueBy m₀.clock.now := Scheduler.dueBy_after ..
  have hfire : (m₀.session.after p).scheduler.fireBurst m₀.clock.now =
      (m₀.session.scheduler.fireBurst m₀.clock.now).after p.generations p.ticks :=
    Scheduler.fireBurst_after ..
  refine ⟨?_, rfl, rfl⟩
  simp only [Simulation.ring, hdue, hfire]
  split <;> simp [Session.after]

theorem perform_report (m : Simulation) (r : Report) :
    (m.perform (.report r)).session = m.session ∧ (m.perform (.report r)).clock = m.clock ∧
      (m.perform (.report r)).feed = m.feed := by
  simp only [perform]
  split <;> exact ⟨rfl, rfl, rfl⟩

theorem HasPast.perform (h : HasPast p m₀ m) (job : Job) :
    HasPast p (m₀.perform job) (m.perform job) := by
  cases job with
  | alarm => exact h.ring
  | void => exact h
  | report r =>
      rcases m₀.perform_report r with ⟨hsession₀, hclock₀, hfeed₀⟩
      rcases m.perform_report r with ⟨hsession, hclock, hfeed⟩
      exact ⟨by rw [hsession, hsession₀, h.session], by rw [hclock, hclock₀, h.clock],
        by rw [hfeed, hfeed₀, h.feed]⟩
  | fetch route =>
      rcases m with ⟨session, clock, sink, feed, journal⟩
      rcases h with ⟨rfl, rfl, rfl⟩
      exact ⟨rfl, rfl, rfl⟩

end HasPast
end Simulation

end TransitSim
