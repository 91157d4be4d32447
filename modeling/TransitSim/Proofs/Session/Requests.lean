import Mathlib.Data.List.Perm.Basic
import TransitSim.Proofs.Session.Conduct
import TransitSim.Proofs.Session.Steps

/-!
# Requests and answers on their way

A session over a recording asks for estimates at each of its ticks. Requests wait to be sent, answers
wait to be taken, and both may happen at any time while somebody waits, in a run or between ticks.
Yet the answers are taken in the order of the recording: those that wait are the responses after
those that have been taken, and each of the other ticks has left one request.

So whatever each response keeps, as it is taken after those before it, is kept by all commands that
leave the estimates alone.
-/

namespace TransitSim

def Job.fetch? : Job → Option String
  | fetch route => some route
  | report _ | alarm | void => none

namespace Simulation

/-- Whether a command leaves the estimates alone. -/
def Command.isPlain : Command → Bool
  | reset | observe .. => false
  | tick | seek _ | start | stop | setMultiplier _ | run .. | settle | idle => true

/-!
# What plain commands keep
-/

/-- What plain commands keep, with the positions that ticks took so far in view. -/
structure PlainLaw (Inv : List Update → Simulation → Prop) : Prop extends
    Run.Law (fun _ => True) Inv where
  seek : ∀ {us m} (index : Nat), Inv us m → Inv us (m.seek index).2
  start : ∀ {us m}, Inv us m → Inv us m.start.2
  stop : ∀ {us m}, Inv us m → Inv us m.stop
  setMultiplier : ∀ {us m} (multiplier : Nat), Inv us m → Inv us (m.setMultiplier multiplier).2

namespace PlainLaw

variable {Inv : List Update → Simulation → Prop} {before : List Update} {m m' : Simulation}

theorem beginRun (hlaw : PlainLaw Inv) (h : Inv before m) (limit deadline : Option Nat) :
    Inv before (m.beginRun limit deadline).2.simulation := by
  simp only [Simulation.beginRun]
  split
  · exact h
  · exact hlaw.start h

theorem does (hlaw : PlainLaw Inv) {command : Command} {es : List Event} {reply : Reply}
    (h : m.Does command es reply m') (hplain : command.isPlain = true) (hm : Inv before m)
    (view : View) : Inv (before ++ Act.taken ⟨command, es, reply, view⟩) m' := by
  cases h with
  | tick =>
      have htick := hlaw.tick hm
      cases hresult : m.tick.1 with
      | error e => simpa [hresult, Act.taken, Except.toOption] using htick
      | ok u => simpa [hresult, Act.taken, Except.toOption] using htick
  | seek index => simpa [Act.taken] using hlaw.seek index hm
  | start => simpa [Act.taken] using hlaw.start hm
  | stop => simpa [Act.taken] using hlaw.stop hm
  | setMultiplier multiplier => simpa [Act.taken] using hlaw.setMultiplier multiplier hm
  | reset => cases hplain
  | observe hobserve => cases hplain
  | refuse he => simpa [Act.taken] using hlaw.beginRun hm _ _
  | run hbegin hleads =>
      exact hlaw.stop (hlaw.leads hleads (fun _ _ => trivial) (hlaw.beginRun hm _ _) rfl)
  | settle hleads hes hsettled => exact hlaw.leads hleads (fun _ _ => trivial) hm rfl
  | idle hleads hes => exact hlaw.leads hleads (fun _ _ => trivial) hm rfl

theorem proceeds (hlaw : PlainLaw Inv) {log : List Act} (h : m.Proceeds log m')
    (hplain : ∀ e ∈ log, e.command.isPlain = true) (hm : Inv before m) :
    Inv (before ++ log.flatMap Act.taken) m' := by
  induction h with
  | nil =>
      rw [List.flatMap_nil, List.append_nil]
      exact hm
  | step h hdoes ih =>
      rcases List.forall_mem_append.mp hplain with ⟨hbefore, hlast⟩
      rw [List.flatMap_append, List.flatMap_singleton, ← List.append_assoc]
      exact hlaw.does hdoes (hlast _ (List.mem_singleton_self _)) (ih hbefore) _

end PlainLaw

end Simulation

/-!
# How commands fail
-/

theorem Run.react_eq_fails {r : Run} {e : Event} (h : r.react e = some .fails) :
    e = .answer ∧ r.simulation.session.answers ≠ [] ∧ r.simulation.takeAnswer = none := by
  by_cases he : e = .tick
  · subst he
    rcases onTick_cases h with ⟨tick, rest, -, hcases⟩
    rcases hcases with ⟨-, -, hturn⟩ | ⟨-, -, u, c, -, -, hturn⟩ | ⟨-, -, -, hturn⟩
    · cases hturn
    · dsimp only at hturn
      split at hturn <;> cases hturn
    · cases hturn
  · rcases (react_cases_of_ne_tick he h).2 with ⟨r', hturn, -⟩ | ⟨-, hturn⟩ | ⟨rfl, -, htake⟩
    · cases hturn
    · cases hturn
    · exact ⟨rfl, (onAnswer_cases h).1, htake⟩

theorem Run.Law.leads_fails {Inv : List Update → Simulation → Prop}
    (hlaw : Run.Law (fun _ => True) Inv) {r : Run} {es : List Event} {us before : List Update}
    (h : r.Leads es us .fails) (hr : Inv before r.simulation) :
    exists m, Inv (before ++ us) m ∧ m.session.answers ≠ [] ∧ m.takeAnswer = none := by
  cases h with
  | react h hreact =>
      rcases react_eq_fails hreact with ⟨rfl, hsome, htake⟩
      refine ⟨_, ?_, hsome, htake⟩
      rw [updates_of_isQuiet rfl, List.append_nil]
      exact hlaw.leads h (fun _ _ => trivial) hr rfl

namespace Simulation

theorem PlainLaw.fails {Inv : List Update → Simulation → Prop} (hlaw : PlainLaw Inv)
    {command : Command} {es : List Event} {us before : List Update} {m : Simulation}
    (h : m.Fails command es us) (hplain : command.isPlain = true) (hm : Inv before m) :
    exists m', Inv (before ++ us) m' ∧ m'.session.answers ≠ [] ∧ m'.takeAnswer = none := by
  cases h with
  | observe hobserve => cases hplain
  | run hbegin hleads => exact hlaw.leads_fails hleads (hlaw.beginRun hm _ _)
  | settle hleads hes => exact hlaw.leads_fails hleads hm

/-!
# Requests and answers
-/

/-- Which requests and answers are on their way over a recording, when a number of responses has
been taken, if the ticks are counted from the first response of all. -/
structure Awaits (recording : Recording) (ticks taken : Nat) (m : Simulation) : Prop where
  feed : m.feed = .recorded { recording with cursor := taken + m.session.answers.length }
  answers : m.session.answers.map Answer.result =
    (List.range' taken m.session.answers.length).map fun index =>
      .ok (Response.snapshots recording.vehicle (recording.response index))
  requests :
    ticks = taken + m.session.answers.length + (m.session.jobs.filterMap Job.fetch?).length

section Awaits

variable {recording : Recording} {ticks taken : Nat} {m m' : Simulation}

theorem Awaits.of_eq (h : m.Awaits recording ticks taken) (hfeed : m'.feed = m.feed)
    (hanswers : m'.session.answers = m.session.answers)
    (hjobs : (m'.session.jobs.filterMap Job.fetch?).length =
      (m.session.jobs.filterMap Job.fetch?).length) :
    m'.Awaits recording ticks taken where
  feed := by rw [hfeed, hanswers, h.feed]
  answers := by rw [hanswers, h.answers]
  requests := by rw [hanswers, hjobs, h.requests]

theorem Awaits.stop (h : m.Awaits recording ticks taken) : m.stop.Awaits recording ticks taken :=
  h.of_eq rfl rfl (congrArg List.length (Session.filterMap_jobsAfterStop rfl rfl m.session))

theorem Awaits.start (h : m.Awaits recording ticks taken) :
    m.start.2.Awaits recording ticks taken := by
  cases hstart : m.session.scheduler.start m.clock.now with
  | error e => refine h.of_eq ?_ ?_ ?_ <;> simp [Simulation.start, Session.start, hstart, note]
  | ok scheduler =>
      refine h.of_eq ?_ ?_ ?_ <;>
        simp [Simulation.start, Session.start, hstart, note, Job.fetch?]

theorem Awaits.setMultiplier (h : m.Awaits recording ticks taken) (multiplier : Nat) :
    (m.setMultiplier multiplier).2.Awaits recording ticks taken := by
  cases hset : m.session.scheduler.setMultiplier m.clock.now multiplier with
  | error e =>
      refine h.of_eq ?_ ?_ ?_ <;>
        simp [Simulation.setMultiplier, Session.setMultiplier, hset, Except.map]
  | ok scheduler =>
      have hjobs := Session.filterMap_jobsAfterStop (p := Job.fetch?) rfl rfl m.session
      refine h.of_eq ?_ ?_ ?_ <;>
        simp only [Simulation.setMultiplier, Session.setMultiplier, hset, Except.map]
      split
      · rw [List.filterMap_append, hjobs, List.length_append]
        rfl
      · rfl

theorem Awaits.seek (h : m.Awaits recording ticks taken) (index : Nat) :
    (m.seek index).2.Awaits recording ticks taken := by
  cases hseek : m.session.source.seek index with
  | error e => refine h.of_eq ?_ ?_ ?_ <;> simp [Simulation.seek, Session.seek, hseek, Except.map]
  | ok next =>
      refine h.of_eq ?_ ?_ ?_ <;>
        simp [Simulation.seek, Session.seek, hseek, Except.map, Session.reportJob, Job.fetch?]

theorem Awaits.tick (h : m.Awaits recording ticks taken) :
    m.tick.2.Awaits recording (ticks + m.tick.1.toOption.toList.length) taken := by
  by_cases hahead : m.session.source.ahead? = some 0
  · have hover := tick_eq_error (Course.tick_of_ahead?_zero (c := m.session.course) hahead)
    have hjobs := Session.filterMap_jobsAfterStop (p := Job.fetch?) rfl rfl m.session
    rw [hover.1]
    refine h.of_eq rfl ?_ ?_ <;> rw [hover.2.2]
    · rfl
    · exact congrArg List.length hjobs
  · rcases Course.tick_of_ahead?_ne (c := m.session.course) hahead with ⟨u, c, htick, -⟩
    have hmoved := tick_eq_ok htick
    have hrequests := h.requests
    rw [hmoved.1]
    constructor
    case feed =>
      rw [hmoved.2.2]
      exact h.feed
    case answers => simpa [hmoved.2.2] using h.answers
    case requests =>
      simp only [hmoved.2.2, List.filterMap_append, List.length_append]
      show ticks + 1 = taken + m.session.answers.length +
        ((m.session.jobs.filterMap Job.fetch?).length + 1)
      omega

theorem Awaits.fetch (h : m.Awaits recording ticks taken) {jobs : List Job} {route : String}
    (hjobs : (m.session.jobs.filterMap Job.fetch?).length =
      (jobs.filterMap Job.fetch?).length + 1) :
    ((m.withJobs jobs).perform (.fetch route)).Awaits recording ticks taken := by
  have hrequests := h.requests
  have hfetch : m.feed.fetch route =
      (.ok (Response.snapshots recording.vehicle
          (recording.response (taken + m.session.answers.length))),
        .recorded { recording with cursor := taken + m.session.answers.length + 1 }) := by
    rw [h.feed]
    rfl
  constructor
  case feed =>
    show (m.feed.fetch route).2 = _
    rw [hfetch]
    simp [perform, withJobs, Nat.add_assoc]
  case answers =>
    simp [perform, withJobs, hfetch, h.answers, List.range'_concat]
  case requests =>
    simp only [perform, withJobs, List.length_append, List.length_singleton]
    omega

theorem Awaits.work (h : m.Awaits recording ticks taken) {index : Nat} {job : Job}
    (hjob : m.session.jobs[index]? = some job) :
    ((m.withJobs (m.session.jobs.eraseIdx index)).perform job).Awaits recording ticks taken := by
  rcases List.getElem?_eq_some_iff.mp hjob with ⟨hindex, rfl⟩
  have hcount := ((List.getElem_cons_eraseIdx_perm hindex).filterMap Job.fetch?).length_eq
  generalize m.session.jobs[index] = job at hjob hcount ⊢
  have hother := filterMap_perform (p := Job.fetch?) rfl
    (m.withJobs (m.session.jobs.eraseIdx index)) job
  cases job with
  | fetch route => exact h.fetch hcount.symm
  | void => exact h.of_eq rfl rfl hcount
  | alarm => exact h.of_eq rfl rfl ((congrArg List.length hother).trans hcount)
  | report r =>
      simp only [perform]
      split <;> exact h.of_eq rfl rfl hcount

theorem Awaits.pass (h : m.Awaits recording ticks taken) (time : Nat) :
    (m.passTo time).Awaits recording ticks taken := by
  refine h.of_eq ?_ ?_ (congrArg List.length (filterMap_passTo rfl m time)) <;>
    (simp only [passTo]; split <;> rfl)

theorem Awaits.takeAnswer (h : m.Awaits recording ticks taken) (hsome : m.session.answers ≠ []) :
    taken + 1 ≤ ticks ∧ exists observed,
      (m.takeAnswer = none ↔ m.session.tracker.respond
        (Response.snapshots recording.vehicle (recording.response taken)) observed = none) ∧
      ∀ m', m.takeAnswer = some m' → m'.Awaits recording ticks (taken + 1) ∧
        exists lines, m.session.tracker.respond
          (Response.snapshots recording.vehicle (recording.response taken)) observed =
            some (m'.session.board, m'.session.tracker, lines) := by
  cases hanswers : m.session.answers with
  | nil => exact absurd hanswers hsome
  | cons a rest =>
      have hresults := h.answers
      have hrequests := h.requests
      have hfeed := h.feed
      rw [hanswers, List.length_cons] at hresults hrequests hfeed
      rw [List.map_cons, List.range'_succ, List.map_cons, List.cons.injEq] at hresults
      refine ⟨by omega, a.observed, ?_, fun m' htake => ⟨?_, ?_⟩⟩
      · simp only [Simulation.takeAnswer, hanswers, Session.apply, hresults.1, Session.observe,
          bind, Option.bind]
        cases m.session.tracker.respond
          (Response.snapshots recording.vehicle (recording.response taken)) a.observed <;> simp
      · rcases takeAnswer_eq hanswers htake with ⟨-, hfeed', hsession⟩
        have hanswers' : m'.session.answers = rest := by rw [hsession]
        have hjobs : m'.session.jobs = m.session.jobs := by rw [hsession]
        constructor
        case feed => rw [hfeed', hanswers', hfeed, Nat.add_right_comm, Nat.add_assoc taken]
        case answers =>
          rw [hanswers']
          exact hresults.2
        case requests =>
          rw [hanswers', hjobs]
          omega
      · simp only [Simulation.takeAnswer, hanswers, Session.apply, hresults.1, Session.observe,
          bind, Option.bind] at htake
        cases hrespond : m.session.tracker.respond
            (Response.snapshots recording.vehicle (recording.response taken)) a.observed with
        | none => simp [hrespond] at htake
        | some told =>
            simp only [hrespond, Option.map_some, Option.some.injEq] at htake
            subst htake
            exact ⟨told.2.2, rfl⟩

theorem Awaits.taken_of_isSettled (h : m.Awaits recording ticks taken) (hsettled : m.IsSettled) :
    taken = ticks := by
  have hnone : m.session.jobs.filterMap Job.fetch? = [] := by
    rw [List.filterMap_eq_nil_iff]
    intro job hjob
    have hinner := hsettled.jobs job hjob
    cases job <;> first | rfl | cases hinner
  simpa [hsettled.answers, hnone] using h.requests.symm

end Awaits

end Simulation

/-!
# Every state over a recording
-/

namespace Simulation

def requests (m : Simulation) : Nat :=
  (m.session.jobs.filterMap Job.fetch?).length

def HasAnswers (m : Simulation) : Prop :=
  ∀ r, m.feed = .recorded r → exists taken, taken + m.session.answers.length = r.cursor ∧
    m.session.answers.map Answer.result =
      (List.range' taken m.session.answers.length).map fun index =>
        .ok (Response.snapshots r.vehicle (r.response index))

section HasAnswers

variable {m m' : Simulation}

theorem HasAnswers.of_eq (h : m.HasAnswers) (hfeed : m'.feed = m.feed)
    (hanswers : m'.session.answers = m.session.answers) : m'.HasAnswers := by
  intro r hr
  rw [hanswers]
  exact h r (hfeed.symm.trans hr)

theorem hasAnswers_of_nil (h : m.session.answers = []) : m.HasAnswers := by
  intro r hr
  exists r.cursor
  rw [h]
  exact ⟨rfl, rfl⟩

theorem HasAnswers.perform (h : m.HasAnswers) (job : Job) : (m.perform job).HasAnswers := by
  cases job with
  | void => exact h
  | alarm => exact h.of_eq rfl rfl
  | report r =>
      simp only [Simulation.perform]
      split <;> exact h.of_eq rfl rfl
  | fetch route =>
      intro r hr
      cases hfeed : m.feed with
      | silent => simp [Simulation.perform, hfeed, Feed.fetch] at hr
      | failing => simp [Simulation.perform, hfeed, Feed.fetch] at hr
      | recorded r₀ =>
          rcases h r₀ hfeed with ⟨taken, hcursor, hresults⟩
          simp only [Simulation.perform, hfeed, Feed.fetch, Recording.fetch, Feed.recorded.injEq]
            at hr ⊢
          subst hr
          refine ⟨taken, ?_, ?_⟩
          · rw [List.length_append, List.length_singleton, ← hcursor, Nat.add_assoc]
          · simp only [List.map_append, List.map_singleton, List.length_append,
              List.length_singleton, List.range'_concat, Nat.one_mul, hresults, hcursor]
            rfl

theorem HasAnswers.foldl_perform (h : m.HasAnswers) (jobs : List Job) :
    (jobs.foldl Simulation.perform m).HasAnswers := by
  induction jobs generalizing m with
  | nil => exact h
  | cons job rest ih => exact ih (h.perform job)

theorem HasAnswers.passTo (h : m.HasAnswers) (time : Nat) : (m.passTo time).HasAnswers := by
  refine h.of_eq ?_ ?_ <;> (simp only [Simulation.passTo]; split <;> rfl)

theorem HasAnswers.takeAnswer (h : m.HasAnswers) (htake : m.takeAnswer = some m') :
    m'.HasAnswers := by
  cases hanswers : m.session.answers with
  | nil =>
      simp only [Simulation.takeAnswer, hanswers, Option.some.injEq] at htake
      exact htake ▸ h
  | cons a rest =>
      rcases takeAnswer_eq hanswers htake with ⟨-, hfeed, hsession⟩
      have hrest : m'.session.answers = rest := by rw [hsession]
      intro r hr
      rcases h r (hfeed.symm.trans hr) with ⟨taken, hcursor, hresults⟩
      rw [hanswers, List.length_cons] at hcursor hresults
      rw [List.map_cons, List.range'_succ, List.map_cons, List.cons.injEq] at hresults
      refine ⟨taken + 1, ?_, ?_⟩
      · rw [hrest]
        omega
      · rw [hrest]
        exact hresults.2

theorem HasAnswers.step (h : m.HasAnswers) (hstep : Step m m') : m'.HasAnswers := by
  cases hstep with
  | withStops stops => exact h.of_eq rfl rfl
  | tick =>
      refine h.of_eq ?_ ?_ <;> simp only [Simulation.tick, Session.tick]
      · rfl
      · split
        · rfl
        · split <;> rfl
  | seek index =>
      refine h.of_eq ?_ ?_ <;> simp only [Simulation.seek, Session.seek] <;>
        cases m.session.source.seek index <;> rfl
  | start =>
      refine h.of_eq ?_ ?_ <;> simp only [Simulation.start, Session.start] <;>
        cases m.session.scheduler.start m.clock.now <;> rfl
  | stop => exact h.of_eq rfl rfl
  | setMultiplier multiplier =>
      refine h.of_eq ?_ ?_ <;> simp only [Simulation.setMultiplier, Session.setMultiplier] <;>
        cases m.session.scheduler.setMultiplier m.clock.now multiplier <;> rfl
  | reset => exact hasAnswers_of_nil rfl
  | observe hobserve =>
      simp only [Simulation.observe, Option.map_eq_some_iff, Prod.exists] at hobserve
      rcases hobserve with ⟨s, lines, hobserve, rfl⟩
      refine h.of_eq rfl ?_
      show s.answers = m.session.answers
      rw [Session.observe_eq hobserve]
  | receive htake => exact h.of_eq rfl rfl
  | answer htake => exact h.takeAnswer htake
  | work hjob =>
      rename_i index job
      have hidle : (m.withJobs (m.session.jobs.eraseIdx index)).HasAnswers := h.of_eq rfl rfl
      exact hidle.perform job
  | fire ht hdue => exact h.of_eq rfl rfl
  | pass time => exact h.passTo time
  | sleep ms =>
      simp only [Simulation.sleep]
      split
      · exact h
      · have hidle : (m.withJobs []).HasAnswers := h.of_eq rfl rfl
        have hwork := hidle.foldl_perform (m.session.jobs.filter Job.isOutward)
        apply HasAnswers.passTo
        exact hwork.of_eq rfl rfl

theorem Reachable.awaits (h : m.Reachable) {r : Recording} (hfeed : m.feed = .recorded r) :
    exists taken, m.Awaits r (r.cursor + m.requests) taken ∧
      taken + m.session.answers.length = r.cursor := by
  have hanswers : m.HasAnswers := by
    clear hfeed
    induction h with
    | new hnew clock sink feed journal =>
        rcases Session.new_eq_ok hnew with ⟨offset, -, rfl, -, -⟩
        exact hasAnswers_of_nil rfl
    | step h hstep ih => exact ih.step hstep
  rcases hanswers r hfeed with ⟨taken, hcursor, hresults⟩
  refine ⟨taken, ⟨?_, hresults, ?_⟩, hcursor⟩
  · rw [hfeed, hcursor]
  · rw [hcursor]
    rfl

end HasAnswers

end Simulation

/-!
# What responses keep
-/

/-- Whether a property of the number of responses taken, the board and the tracker is kept by the
responses of a recording, each taken after those before it. -/
def Recording.Keeps (recording : Recording) (known : Nat → Board → Tracker → Prop) : Prop :=
  ∀ taken board tracker board' tracker' lines observed, known taken board tracker →
    tracker.respond (Response.snapshots recording.vehicle (recording.response taken)) observed =
      some (board', tracker', lines) → known (taken + 1) board' tracker'

namespace Simulation

def Consumes (recording : Recording) (first : Nat) (known : Nat → Board → Tracker → Prop)
    (us : List Update) (m : Simulation) : Prop :=
  exists taken, m.Awaits recording (first + us.length) taken ∧
    known taken m.session.board m.session.tracker

section Consumes

variable {recording : Recording} {first : Nat} {known : Nat → Board → Tracker → Prop}
  {us : List Update} {m m' : Simulation}

theorem Consumes.of_moves (h : m.Consumes recording first known us)
    (hmoves : m.session.Moves m'.session) {us' : List Update}
    (hawaits : ∀ taken, m.Awaits recording (first + us.length) taken →
      m'.Awaits recording (first + us'.length) taken) :
    m'.Consumes recording first known us' := by
  rcases h with ⟨taken, htaken, hknown⟩
  refine ⟨taken, hawaits taken htaken, ?_⟩
  rw [hmoves.board, hmoves.tracker]
  exact hknown

theorem moves_setMultiplier (m : Simulation) (multiplier : Nat) :
    (m.setMultiplier multiplier).2.session.board = m.session.board ∧
      (m.setMultiplier multiplier).2.session.tracker = m.session.tracker := by
  rcases m.setMultiplier_cases multiplier with ⟨_, -, -, hmoves⟩ | hsame
  · exact ⟨hmoves.board, hmoves.tracker⟩
  · rw [hsame]
    exact ⟨rfl, rfl⟩

/-- What the responses of a recording keep is kept by plain commands. -/
theorem plainLaw_consumes (hkeeps : recording.Keeps known) :
    PlainLaw fun us m => m.Consumes recording first known us where
  reschedule := fun scheduler ⟨taken, h, hknown⟩ => ⟨taken, h.of_eq rfl rfl rfl, hknown⟩
  tick := by
    intro us m h
    refine h.of_moves (moves_tick m) fun taken htaken => ?_
    rw [List.length_append, ← Nat.add_assoc]
    exact htaken.tick
  answer := by
    rintro us m m' ⟨taken, h, hknown⟩ hsome htake
    rcases (h.takeAnswer hsome).2 with ⟨observed, -, htaken⟩
    rcases htaken m' htake with ⟨hawaits, lines, hrespond⟩
    exact ⟨taken + 1, hawaits, hkeeps _ _ _ _ _ lines observed hknown hrespond⟩
  work := by
    intro us m index job h _ hjob
    have hidle : m.session.Moves (m.withJobs (m.session.jobs.eraseIdx index)).session :=
      ⟨rfl, rfl, rfl, rfl, rfl⟩
    exact h.of_moves (hidle.trans (moves_perform _ job)) fun taken htaken => htaken.work hjob
  pass := fun time h => h.of_moves (moves_passTo _ time) fun taken htaken => htaken.pass time
  seek := fun index h => h.of_moves (moves_seek _ index) fun taken htaken => htaken.seek index
  start := fun h => h.of_moves (moves_start _) fun taken htaken => htaken.start
  stop := fun ⟨taken, h, hknown⟩ => ⟨taken, h.stop, hknown⟩
  setMultiplier := by
    rintro us m multiplier ⟨taken, h, hknown⟩
    rcases m.moves_setMultiplier multiplier with ⟨hboard, htracker⟩
    refine ⟨taken, h.setMultiplier multiplier, ?_⟩
    rw [hboard, htracker]
    exact hknown

theorem Consumes.fails (hkeeps : recording.Keeps known) {command : Command} {es : List Event}
    {us' : List Update} (h : m.Fails command es us') (hplain : command.isPlain = true)
    (hm : m.Consumes recording first known us) :
    exists taken board tracker observed, taken + 1 ≤ first + (us ++ us').length ∧
      known taken board tracker ∧
        tracker.respond (Response.snapshots recording.vehicle (recording.response taken)) observed =
          none := by
  rcases (plainLaw_consumes hkeeps).fails h hplain hm with
    ⟨m', ⟨taken, hawaits, hknown⟩, hsome, hnone⟩
  rcases hawaits.takeAnswer hsome with ⟨hle, observed, hiff, -⟩
  exact ⟨taken, m'.session.board, m'.session.tracker, observed, hle, hknown, hiff.mp hnone⟩

end Consumes

end Simulation
end TransitSim
