import TransitSim.Proofs.Run.InTurn
import TransitSim.Proofs.Run.Invariants

/-!
# What a user does with a session

A user gives one command after the other. Most commands are carried out at once; in a run, and while
the user waits, events happen, in any order that the state allows. A log tells for each command what
happened meanwhile, what was replied, and what there was to be seen of the session afterwards.

Waiting is told as a run that takes no ticks, so that whatever holds of single events holds of both.
`Simulation.run` and `Simulation.settle` are among the ways in which these commands can be carried
out, and do all work in order.
-/

namespace TransitSim

namespace Event

def isQuiet : Event → Bool
  | tick | shutdown => false
  | answer | job _ | fire | pass _ => true

def isOutside : Event → Bool
  | job _ | fire | pass _ => true
  | tick | shutdown | answer => false

end Event

/-- What there is to be seen of a session. -/
structure View where
  config : Config
  stops : List Stop
  source : Source
  last : Option Update
  ticks : Nat
  isRunning : Bool
  interval : Nat
  tracker : Tracker
  board : Board

def Session.view (s : Session) : View where
  config := s.config
  stops := s.stops
  source := s.source
  last := s.last
  ticks := s.ticks
  isRunning := s.isRunning
  interval := s.scheduler.interval
  tracker := s.tracker
  board := s.board

def Run.watch (m : Simulation) : Run := ⟨m, 0, none, none, 0⟩

namespace Simulation

/-!
# Commands and logs
-/

inductive Command where
  | tick
  | seek (index : Nat)
  | start
  | stop
  | setMultiplier (multiplier : Nat)
  | reset
  | observe (snapshots : List Snapshot) (observed : Calendar.Instant)
  | run (limit deadline : Option Nat)
  | settle
  | idle

/-- What is replied to a command. -/
inductive Reply where
  | done
  | granted (result : Except Error Unit)
  | position (result : Except Error Update)
  | outcome (result : Except Error Outcome) (taken : List Update)

/-- Whether all reports have been made and all answers have been taken. -/
structure IsSettled (m : Simulation) : Prop where
  answers : m.session.answers = []
  jobs : ∀ job ∈ m.session.jobs, job.isOutward = false

/-- How a command may be carried out: what happens meanwhile, the reply, and what it leaves. -/
inductive Does : Simulation → Command → List Event → Reply → Simulation → Prop where
  | tick (m : Simulation) : Does m .tick [] (.position m.tick.1) m.tick.2
  | seek (m : Simulation) (index : Nat) :
      Does m (.seek index) [] (.position (m.seek index).1) (m.seek index).2
  | start (m : Simulation) : Does m .start [] (.granted m.start.1) m.start.2
  | stop (m : Simulation) : Does m .stop [] .done m.stop
  | setMultiplier (m : Simulation) (multiplier : Nat) :
      Does m (.setMultiplier multiplier) [] (.granted (m.setMultiplier multiplier).1)
        (m.setMultiplier multiplier).2
  | reset (m : Simulation) : Does m .reset [] .done m.reset
  | observe {m m' : Simulation} {snapshots : List Snapshot} {observed : Calendar.Instant}
      (h : m.observe snapshots observed = some m') :
      Does m (.observe snapshots observed) [] .done m'
  | refuse {m : Simulation} {limit deadline : Option Nat} {e : Error}
      (h : (m.beginRun limit deadline).1 = .error e) :
      Does m (.run limit deadline) [] (.outcome (.error e) [])
        (m.beginRun limit deadline).2.simulation
  | run {m m' : Simulation} {limit deadline : Option Nat} {es : List Event} {us : List Update}
      {result : Except Error Outcome} (h : (m.beginRun limit deadline).1 = .ok ())
      (hleads : (m.beginRun limit deadline).2.Leads es us (.ends result m')) :
      Does m (.run limit deadline) es (.outcome result us) m'.stop
  | settle {m : Simulation} {es : List Event} {r : Run}
      (hleads : (Run.watch m).Leads es [] (.goes r)) (hes : ∀ e ∈ es, e.isQuiet = true)
      (hsettled : r.simulation.IsSettled) : Does m .settle es .done r.simulation
  | idle {m : Simulation} {es : List Event} {r : Run}
      (hleads : (Run.watch m).Leads es [] (.goes r)) (hes : ∀ e ∈ es, e.isOutside = true) :
      Does m .idle es .done r.simulation

/-- How a command may fail at a time beyond the calendar, and the positions taken before that. -/
inductive Fails : Simulation → Command → List Event → List Update → Prop where
  | observe {m : Simulation} {snapshots : List Snapshot} {observed : Calendar.Instant}
      (h : m.observe snapshots observed = none) : Fails m (.observe snapshots observed) [] []
  | run {m : Simulation} {limit deadline : Option Nat} {es : List Event} {us : List Update}
      (h : (m.beginRun limit deadline).1 = .ok ())
      (hleads : (m.beginRun limit deadline).2.Leads es us .fails) :
      Fails m (.run limit deadline) es us
  | settle {m : Simulation} {es : List Event} (hleads : (Run.watch m).Leads es [] .fails)
      (hes : ∀ e ∈ es, e.isQuiet = true) : Fails m .settle es []

structure Act where
  command : Command
  events : List Event
  reply : Reply
  view : View

namespace Act

def taken (e : Act) : List Update :=
  match e.command, e.reply with
  | .tick, .position (.ok u) => [u]
  | .run .., .outcome _ us => us
  | _, _ => []

def positions (e : Act) : List Update :=
  match e.reply with
  | .position (.ok u) => [u]
  | .outcome _ us => us
  | _ => []

/-- Whether all work was done in the order in which it was left. -/
def IsInTurn (e : Act) : Prop :=
  ∀ event ∈ e.events, event.isInTurn = true

end Act

/-- How one command after the other may be carried out. -/
inductive Proceeds (m : Simulation) : List Act → Simulation → Prop where
  | nil : Proceeds m [] m
  | step {log : List Act} {m₁ m₂ : Simulation} {command : Command} {events : List Event}
      {reply : Reply} (h : Proceeds m log m₁) (hdoes : m₁.Does command events reply m₂) :
      Proceeds m (log ++ [⟨command, events, reply, m₂.session.view⟩]) m₂

end Simulation

/-!
# Work that is left

Turns of the timer come and go; of all other work, stopping the timer leaves what there is.
-/

namespace Simulation

theorem jobs_perform (m : Simulation) (job : Job) :
    exists alarms, (m.perform job).session.jobs = m.session.jobs ++ alarms ∧
      ∀ left ∈ alarms, left = .alarm := by
  cases job with
  | void => exact ⟨[], (List.append_nil _).symm, fun _ h => nomatch h⟩
  | fetch route => exact ⟨[], (List.append_nil _).symm, fun _ h => nomatch h⟩
  | report r =>
      refine ⟨[], ?_, fun _ h => nomatch h⟩
      simp only [perform]
      split <;> exact (List.append_nil _).symm
  | alarm =>
      simp only [perform, ring]
      split
      · exact ⟨[.alarm], rfl, fun _ h => List.mem_singleton.mp h⟩
      · exact ⟨[], (List.append_nil _).symm, fun _ h => nomatch h⟩

end Simulation

section Work

variable {A : Type} {p : Job → Option A}

theorem Session.filterMap_jobsAfterStop (halarm : p .alarm = none) (hvoid : p .void = none)
    (s : Session) : s.jobsAfterStop.filterMap p = s.jobs.filterMap p := by
  simp only [jobsAfterStop]
  split
  · rfl
  · split
    · rw [List.filterMap_map]
      congr 1
      funext job
      cases job with
      | alarm => exact hvoid.trans halarm.symm
      | report r => rfl
      | fetch route => rfl
      | void => rfl
    · simp [hvoid]

theorem Simulation.filterMap_perform (halarm : p .alarm = none) (m : Simulation) (job : Job) :
    (m.perform job).session.jobs.filterMap p = m.session.jobs.filterMap p := by
  rcases m.jobs_perform job with ⟨alarms, hjobs, hall⟩
  have hnone : alarms.filterMap p = [] := by
    rw [List.filterMap_eq_nil_iff]
    intro left hleft
    rw [hall left hleft, halarm]
  rw [hjobs, List.filterMap_append, hnone, List.append_nil]

theorem Simulation.filterMap_passTo (halarm : p .alarm = none) (m : Simulation) (time : Nat) :
    (m.passTo time).session.jobs.filterMap p = m.session.jobs.filterMap p := by
  simp only [passTo]
  split
  · simp [halarm]
  · rfl

end Work

/-!
# What single events keep
-/

namespace Run

/-- What events of some kind keep, with the positions taken so far in view; it does not depend on
the scheduler. -/
structure Law (P : Event → Prop) (Inv : List Update → Simulation → Prop) : Prop where
  reschedule : ∀ {us m} (scheduler : Scheduler), Inv us m →
    Inv us { m with session := { m.session with scheduler } }
  tick : ∀ {us m}, Inv us m → Inv (us ++ m.tick.1.toOption.toList) m.tick.2
  answer : ∀ {us m m'}, Inv us m → m.session.answers ≠ [] → m.takeAnswer = some m' → Inv us m'
  work : ∀ {us m index job}, Inv us m → P (.job index) → m.session.jobs[index]? = some job →
    Inv us ((m.withJobs (m.session.jobs.eraseIdx index)).perform job)
  pass : ∀ {us m} (time : Nat), Inv us m → Inv us (m.passTo time)

section Law

variable {P : Event → Prop} {Inv : List Update → Simulation → Prop} {us : List Update}
  {turn : Turn} {m : Simulation}

theorem Law.onTick (hlaw : Law P Inv) {r : Run} (hr : Inv us r.simulation)
    (h : r.onTick = some turn) (hm : turn.simulation? = some m) :
    Inv (us ++ r.updates .tick) m := by
  rcases onTick_cases h with ⟨tick, rest, -, hcases⟩
  have hreceived : Inv us (r.simulation.withQueue rest) := hlaw.reschedule _ hr
  have hticked := hlaw.tick hreceived
  rcases hcases with ⟨-, hupdates, rfl⟩ | ⟨-, -, u, c, hcourse, hupdates, rfl⟩ |
    ⟨-, hahead, hupdates, rfl⟩
  · cases hm
    rw [hupdates, List.append_nil]
    exact hreceived
  · rw [(Simulation.tick_eq_ok (m := r.simulation.withQueue rest) hcourse).1] at hticked
    rw [hupdates]
    dsimp only at hm
    split at hm <;> cases hm <;> exact hticked
  · cases hm
    rw [(Simulation.tick_eq_error (m := r.simulation.withQueue rest)
      (Course.tick_of_ahead?_zero hahead)).1] at hticked
    rw [hupdates]
    exact hticked

theorem Law.react (hlaw : Law P Inv) {r : Run} {e : Event} (hr : Inv us r.simulation) (he : P e)
    (h : r.react e = some turn) (hm : turn.simulation? = some m) :
    Inv (us ++ r.updates e) m := by
  by_cases htick : e = .tick
  · subst htick
    exact hlaw.onTick hr h hm
  · rw [(react_cases_of_ne_tick htick h).1, List.append_nil]
    cases e with
    | tick => exact absurd rfl htick
    | shutdown =>
        cases h
        cases hm
        exact hr
    | answer =>
        rcases onAnswer_cases h with ⟨hsome, ⟨m', htake, rfl⟩ | ⟨-, rfl⟩⟩
        · cases hm
          exact hlaw.answer hr hsome htake
        · cases hm
    | job index =>
        rcases onJob_cases h with ⟨job, hjob, rfl⟩
        cases hm
        exact hlaw.work hr he hjob
    | fire =>
        rcases onFire_cases h with ⟨t, -, -, rfl⟩
        cases hm
        exact hlaw.reschedule _ hr
    | pass time =>
        cases h
        cases hm
        exact hlaw.pass time hr

theorem Law.leads (hlaw : Law P Inv) {r : Run} {es : List Event} (h : r.Leads es us turn)
    (hes : ∀ e ∈ es, P e) {before : List Update} (hr : Inv before r.simulation)
    (hm : turn.simulation? = some m) : Inv (before ++ us) m := by
  induction h generalizing m with
  | start =>
      cases hm
      rwa [List.append_nil]
  | react h hreact ih =>
      rcases List.forall_mem_append.mp hes with ⟨hbefore, he⟩
      rw [← List.append_assoc]
      exact hlaw.react (ih hbefore rfl) (he _ (List.mem_singleton_self _)) hreact hm

end Law

theorem updates_of_isQuiet {r : Run} {e : Event} (h : e.isQuiet = true) : r.updates e = [] := by
  cases e <;> first | rfl | cases h

/-!
# Answers taken and work done while somebody waits
-/

section Led

variable {P : Event → Prop}

theorem Led.takeAnswers (hP : P .answer) {r r' : Run} {us : List Update} (h : Led P r us r')
    {count : Nat} (hcount : count ≤ r'.simulation.session.answers.length) :
    (∀ m, Simulation.takeAnswers count r'.simulation = some m →
      Led P r us { r' with simulation := m } ∧
        m.session.answers = r'.simulation.session.answers.drop count ∧
        m.session.jobs = r'.simulation.session.jobs) ∧
      (Simulation.takeAnswers count r'.simulation = none →
        exists es, r.Leads es us .fails ∧ ∀ e ∈ es, P e) := by
  induction count generalizing r' with
  | zero =>
      refine ⟨?_, fun hnone => nomatch hnone⟩
      rintro m ⟨⟩
      exact ⟨h, rfl, rfl⟩
  | succ count ih =>
      cases hanswers : r'.simulation.session.answers with
      | nil => simp [hanswers] at hcount
      | cons a rest =>
          have hsome : r'.simulation.session.answers.isEmpty = false := by simp [hanswers]
          cases htake : r'.simulation.takeAnswer with
          | none =>
              have hreact : r'.react .answer = some .fails := by
                simp [Run.react, onAnswer, hsome, htake]
              rcases h.react hreact hP with ⟨es, turn, hleads, hturn, hes⟩
              refine ⟨?_, fun _ => ?_⟩
              · intro m hm
                simp [Simulation.takeAnswers, htake] at hm
              · cases turn with
                | goes q => cases hturn
                | ends result m => cases hturn
                | fails => exact ⟨_, by simpa [updates] using hleads, hes⟩
          | some m =>
              have hreact : r'.react .answer =
                  some (.goes { r' with simulation := m, turns := r'.turns + 1 }) := by
                simp [Run.react, onAnswer, hsome, htake]
              have hled := (h.goes hreact hP).turns r'.turns
              rw [updates_of_isQuiet rfl, List.append_nil] at hled
              have hsession := (Simulation.takeAnswer_eq hanswers htake).2.2
              have hrest : m.session.answers = rest := by rw [hsession]
              have hjobs : m.session.jobs = r'.simulation.session.jobs := by rw [hsession]
              have hcount' : count ≤ m.session.answers.length := by
                rw [hanswers, List.length_cons] at hcount
                rw [hrest]
                omega
              have htail := ih (show Led P r us { r' with simulation := m } from hled) hcount'
              simpa [Simulation.takeAnswers, htake, hrest, hjobs] using htail

theorem Led.takeAll (hP : P .answer) {r r' : Run} {us : List Update} (h : Led P r us r') :
    (∀ m, r'.simulation.takeAll = some m →
      Led P r us { r' with simulation := m } ∧ m.session.answers = [] ∧
        m.session.jobs = r'.simulation.session.jobs) ∧
      (r'.simulation.takeAll = none → exists es, r.Leads es us .fails ∧ ∀ e ∈ es, P e) := by
  have htake := h.takeAnswers hP (Nat.le_refl _)
  rw [List.drop_length] at htake
  exact htake

end Led

end Run

namespace Simulation

theorem settleRounds_of_none {m : Simulation} (h : m.takeAll = none) (rounds : Nat) :
    settleRounds (rounds + 1) m = none := by
  rw [settleRounds, h]
  rfl

theorem settleRounds_of_some {m m' : Simulation} (h : m.takeAll = some m') (rounds : Nat) :
    settleRounds (rounds + 1) m =
      if m'.session.jobs.any Job.isOutward then settleRounds rounds m'.work else some m' := by
  rw [settleRounds, h]
  rfl

theorem jobs_foldl_perform (m : Simulation) (jobs : List Job) :
    exists alarms, (jobs.foldl perform m).session.jobs = m.session.jobs ++ alarms ∧
      ∀ left ∈ alarms, left = .alarm := by
  induction jobs generalizing m with
  | nil => exact ⟨[], (List.append_nil _).symm, fun _ h => nomatch h⟩
  | cons job rest ih =>
      rcases m.jobs_perform job with ⟨first, hfirst, hfirstAlarms⟩
      rcases ih (m.perform job) with ⟨others, hothers, hothersAlarms⟩
      refine ⟨first ++ others, ?_, List.forall_mem_append.mpr ⟨hfirstAlarms, hothersAlarms⟩⟩
      rw [List.foldl_cons, hothers, hfirst, List.append_assoc]

theorem isOutward_drop_work {m : Simulation} {rounds : Nat}
    (h : ∀ job ∈ m.session.jobs.drop (rounds + 1), job.isOutward = false) :
    ∀ job ∈ m.work.session.jobs.drop rounds, job.isOutward = false := by
  intro job hjob
  rcases jobs_foldl_perform (m.withJobs (m.session.jobs.drop batch)) (m.session.jobs.take batch)
    with ⟨alarms, halarms, hall⟩
  have hwork : m.work.session.jobs = m.session.jobs.drop batch ++ alarms := halarms
  rw [hwork, List.drop_append] at hjob
  rcases List.mem_append.mp hjob with hold | hnew
  · rw [List.drop_drop] at hold
    apply h
    rw [show batch + rounds = rounds + 1 + (batch - 1) by simp [batch]; omega,
      ← List.drop_drop] at hold
    exact List.mem_of_mem_drop hold
  · rw [hall job (List.mem_of_mem_drop hnew)]
    rfl

end Simulation

namespace Run

theorem Led.settleRounds {P : Event → Prop} (hanswer : P .answer) (hjob : P (.job 0)) {r r' : Run}
    {us : List Update} (h : Led P r us r') {rounds : Nat}
    (hrounds : ∀ job ∈ r'.simulation.session.jobs.drop rounds, job.isOutward = false) :
    (∀ m, Simulation.settleRounds rounds r'.simulation = some m →
      Led P r us { r' with simulation := m } ∧ m.IsSettled) ∧
      (Simulation.settleRounds rounds r'.simulation = none →
        exists es, r.Leads es us .fails ∧ ∀ e ∈ es, P e) := by
  induction rounds generalizing r' with
  | zero =>
      have htake := h.takeAll hanswer
      refine ⟨?_, htake.2⟩
      intro m hm
      rcases htake.1 m hm with ⟨hled, hanswers, hjobs⟩
      exact ⟨hled, hanswers, fun job hmem => hrounds job (hjobs ▸ hmem)⟩
  | succ rounds ih =>
      have htake := h.takeAll hanswer
      cases hall : r'.simulation.takeAll with
      | none =>
          rw [Simulation.settleRounds_of_none hall]
          exact ⟨fun m => nofun, fun _ => htake.2 hall⟩
      | some m₁ =>
          rw [Simulation.settleRounds_of_some hall]
          rcases htake.1 m₁ hall with ⟨hled, hanswers, hjobs⟩
          by_cases hwork : m₁.session.jobs.any Job.isOutward = true
          · have hworked := (hled.work hjob).turns r'.turns
            have hleft : ∀ job ∈ m₁.work.session.jobs.drop rounds, job.isOutward = false :=
              Simulation.isOutward_drop_work (hjobs ▸ hrounds)
            have hrest := ih (show Led P r us { r' with simulation := m₁.work } from hworked) hleft
            rw [if_pos hwork]
            exact hrest
          · have hsettled : m₁.IsSettled := by
              refine ⟨hanswers, fun job hmem => ?_⟩
              simpa using fun hout => hwork (List.any_eq_true.mpr ⟨job, hmem, hout⟩)
            rw [if_neg hwork]
            refine ⟨?_, fun hnone => nomatch hnone⟩
            rintro m ⟨⟩
            exact ⟨hled, hsettled⟩

end Run

namespace Simulation

/-!
# What is done in order
-/

theorem settle_cases (m : Simulation) :
    (∀ m', m.settle = some m' → exists es, m.Does .settle es .done m' ∧
      ∀ e ∈ es, e.isInTurn = true) ∧
      (m.settle = none → exists es, m.Fails .settle es [] ∧ ∀ e ∈ es, e.isInTurn = true) := by
  have hrounds : ∀ job ∈ m.session.jobs.drop m.session.jobs.length, job.isOutward = false := by
    rw [List.drop_length]
    exact fun job hjob => nomatch hjob
  have hled : Run.Led (fun e => e.isInTurn = true ∧ e.isQuiet = true) (.watch m) [] (.watch m) :=
    Run.led_self _
  have hsettle := hled.settleRounds ⟨rfl, rfl⟩ ⟨rfl, rfl⟩ hrounds
  constructor
  · intro m' hm'
    rcases hsettle.1 m' hm' with ⟨⟨es, turns, hleads, hes⟩, hsettled⟩
    exact ⟨es, .settle hleads (fun e he => (hes e he).2) hsettled, fun e he => (hes e he).1⟩
  · intro hnone
    rcases hsettle.2 hnone with ⟨es, hleads, hes⟩
    exact ⟨es, .settle hleads fun e he => (hes e he).2, fun e he => (hes e he).1⟩

theorem run_does {m m' : Simulation} {limit deadline : Option Nat}
    {result : Except Error Outcome} (h : m.run limit deadline = .ended result m') :
    exists es us, m.Does (.run limit deadline) es (.outcome result us) m' ∧
      ∀ e ∈ es, e.isInTurn = true := by
  rcases m.run_cases limit deadline with ⟨e, he, hrun⟩ | ⟨hbegin, hrun⟩
  · cases h.symm.trans hrun
    exact ⟨[], [], .refuse he, fun _ hmem => nomatch hmem⟩
  · have hcomes := (m.beginRun limit deadline).2.comes_finish
    rw [← hrun, h] at hcomes
    cases hcomes with
    | ended hleads hunasked hinTurn => exact ⟨_, _, .run hbegin hleads, hinTurn⟩

/-!
# Within the calendar
-/

theorem InCalendar.seek {m : Simulation} (h : m.InCalendar) (index : Nat) :
    (m.seek index).2.InCalendar := by
  cases hseek : m.session.source.seek index <;>
    refine h.of_eq ?_ ?_ <;> simp [Simulation.seek, Session.seek, hseek, Except.map]

theorem InCalendar.start {m : Simulation} (h : m.InCalendar) : m.start.2.InCalendar := by
  cases hstart : m.session.scheduler.start m.clock.now <;>
    refine h.of_eq ?_ ?_ <;> simp [Simulation.start, Session.start, hstart, note]

theorem InCalendar.setMultiplier {m : Simulation} (h : m.InCalendar) (multiplier : Nat) :
    (m.setMultiplier multiplier).2.InCalendar := by
  cases hset : m.session.scheduler.setMultiplier m.clock.now multiplier <;>
    refine h.of_eq ?_ ?_ <;>
      simp [Simulation.setMultiplier, Session.setMultiplier, hset, Except.map]

theorem InCalendar.beginRun {m : Simulation} (h : m.InCalendar) (limit deadline : Option Nat) :
    (m.beginRun limit deadline).2.simulation.InCalendar := by
  simp only [Simulation.beginRun]
  split
  · exact h
  · exact h.start

theorem Does.inCalendar {m m' : Simulation} {command : Command} {es : List Event} {reply : Reply}
    (h : m.Does command es reply m') (hm : m.InCalendar) : m'.InCalendar := by
  have hwaits {es : List Event} {r : Run} (hleads : (Run.watch m).Leads es [] (.goes r)) :
      r.simulation.InCalendar := by
    rcases hleads.inCalendar hm with ⟨n, hn, hwithin⟩
    cases hn
    exact hwithin
  cases h with
  | tick => exact hm.tick
  | seek index => exact hm.seek index
  | start => exact hm.start
  | stop => exact hm.of_eq rfl rfl
  | setMultiplier multiplier => exact hm.setMultiplier multiplier
  | reset => exact ⟨hm.feed, fun _ ha => nomatch ha⟩
  | observe hobserve =>
      simp only [Simulation.observe, Option.map_eq_some_iff, Prod.exists] at hobserve
      rcases hobserve with ⟨s, lines, hsession, rfl⟩
      refine hm.of_eq rfl ?_
      rw [session_note, Session.observe_eq hsession]
  | refuse he => exact hm.beginRun _ _
  | run hbegin hleads =>
      rcases hleads.inCalendar (hm.beginRun _ _) with ⟨n, hn, hwithin⟩
      cases hn
      exact hwithin.of_eq rfl rfl
  | settle hleads hes hsettled => exact hwaits hleads
  | idle hleads hes => exact hwaits hleads

theorem Proceeds.inCalendar {m m' : Simulation} {log : List Act} (h : m.Proceeds log m')
    (hm : m.InCalendar) : m'.InCalendar := by
  induction h with
  | nil => exact hm
  | step h hdoes ih => exact hdoes.inCalendar ih

theorem InCalendar.settle {m : Simulation} (h : m.InCalendar) :
    exists m', m.settle = some m' := by
  cases hsettle : m.settle with
  | some m' => exact ⟨m', rfl⟩
  | none =>
      rcases m.settle_cases.2 hsettle with ⟨es, hfail, -⟩
      cases hfail with
      | settle hleads hes =>
          rcases hleads.inCalendar h with ⟨n, hn, -⟩
          cases hn

end Simulation
end TransitSim
