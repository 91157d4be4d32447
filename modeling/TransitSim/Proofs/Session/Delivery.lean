import Mathlib.Data.List.Forall2
import TransitSim.Proofs.Session.Kinship

/-!
# The delivery of reports

Every position that a tick takes or a jump reaches is reported, once, and in order. The reports that
have been handed over and those that are still among the work tell the positions together: a report
that is made moves from one to the other, and nothing else touches either, not even a reset.

What a receiver does with its reports has no effect on the session. One that refuses them all is as
good as any other, since sessions with different receivers are akin.
-/

namespace TransitSim

structure Report.Tells (r : Report) (u : Update) : Prop where
  coordinate : r.coordinate = u.coordinate
  speed : r.speed = u.speed
  accuracy : r.accuracy = 0

def Job.report? : Job → Option Report
  | report r => some r
  | fetch _ | alarm | void => none

namespace Sink

/-!
# Receivers
-/

def take (s : Sink) (r : Report) : Sink × Journal :=
  match s.report r with
  | .ok next => next
  | .error e => (s, Journal.warn ("Position report failed: " ++ e.message))

def receive (s : Sink) : List Report → Sink × Journal
  | [] => (s, [])
  | r :: rest => ((receive (s.take r).1 rest).1, (s.take r).2 ++ (receive (s.take r).1 rest).2)

theorem receive_concat (s : Sink) (rs : List Report) (r : Report) :
    s.receive (rs ++ [r]) =
      (((s.receive rs).1.take r).1, (s.receive rs).2 ++ ((s.receive rs).1.take r).2) := by
  induction rs generalizing s with
  | nil => simp [receive]
  | cons first rest ih =>
      rw [List.cons_append, receive, ih, receive]
      simp only [List.append_assoc]

theorem receive_memory (kept rs : List Report) :
    (memory kept).receive rs = (memory (kept ++ rs), []) := by
  induction rs generalizing kept with
  | nil => simp [receive]
  | cons r rest ih => simp [receive, take, report, ih]

theorem receive_file {f : LineFile} (h : f.isOpen = true) (rs : List Report) :
    (file f).receive rs = (file { f with queue := f.queue ++ rs }, []) := by
  induction rs generalizing f with
  | nil => simp [receive]
  | cons r rest ih =>
      have hreport : f.report r = .ok { f with queue := f.queue ++ [r] } := by
        simp [LineFile.report, h]
      have hrest := ih (f := { f with queue := f.queue ++ [r] }) h
      simp only [receive, take, report, hreport, Except.map, hrest]
      simp

theorem receive_journal (driver merchant : String) (rs : List Report) :
    (journal driver merchant).receive rs =
      (journal driver merchant, rs.flatMap fun r => Journal.info (r.describe driver merchant)) := by
  induction rs with
  | nil => rfl
  | cons r rest ih =>
      simp only [receive, take, report, ih, List.flatMap_cons]

end Sink

namespace Simulation

theorem perform_report_eq (m : Simulation) (r : Report) :
    m.perform (.report r) = { m with sink := (m.sink.take r).1 }.note (m.sink.take r).2 := by
  simp only [perform, Sink.take]
  cases m.sink.report r <;> rfl

/-!
# What adds to the journal only
-/

def Adds (m m' : Simulation) : Prop :=
  m'.sink = m.sink ∧ exists lines, m'.journal = m.journal ++ lines

section Adds

variable (m : Simulation)

theorem adds_self : m.Adds m :=
  ⟨rfl, [], (List.append_nil _).symm⟩

theorem adds_note (session : Session) (clock : Clock) (feed : Feed) (lines : Journal) :
    m.Adds ({ m with session, clock, feed }.note lines) :=
  ⟨rfl, lines, rfl⟩

theorem adds_tick : m.Adds m.tick.2 := adds_note ..

theorem adds_seek (index : Nat) : m.Adds (m.seek index).2 := by
  simp only [seek]
  split <;> exact m.adds_self

theorem adds_start : m.Adds m.start.2 := by
  simp only [start]
  split
  · exact adds_note ..
  · exact adds_note ..

theorem adds_stop : m.Adds m.stop := adds_note ..

theorem adds_setMultiplier (multiplier : Nat) : m.Adds (m.setMultiplier multiplier).2 := by
  simp only [setMultiplier]
  split <;> exact m.adds_self

theorem adds_reset : m.Adds m.reset := adds_note ..

variable {m} {m' : Simulation}

theorem adds_observe {snapshots : List Snapshot} {observed : Calendar.Instant}
    (h : m.observe snapshots observed = some m') : m.Adds m' := by
  simp only [observe, Option.map_eq_some_iff, Prod.exists] at h
  rcases h with ⟨s, lines, -, rfl⟩
  exact adds_note ..

theorem adds_takeAnswer (h : m.takeAnswer = some m') : m.Adds m' := by
  cases hanswers : m.session.answers with
  | nil =>
      simp only [takeAnswer, hanswers, Option.some.injEq] at h
      exact h ▸ m.adds_self
  | cons a rest =>
      simp only [takeAnswer, hanswers, Option.map_eq_some_iff, Prod.exists] at h
      rcases h with ⟨s, lines, -, rfl⟩
      exact adds_note ..

variable (m)

theorem adds_passTo (time : Nat) : m.Adds (m.passTo time) := by
  simp only [passTo]
  split <;> exact ⟨rfl, [], (List.append_nil _).symm⟩

end Adds

/-!
# Positions, reports made and reports to be made
-/

/-- How a simulation stands that began as another one: so many positions have been told by the
reports that have been handed over and those that wait. -/
structure Delivers (m₀ : Simulation) (us : List Update) (handed : List Report) (m : Simulation) :
    Prop where
  told : List.Forall₂ Report.Tells (handed ++ m.session.jobs.filterMap Job.report?) us
  sink : m.sink = (m₀.sink.receive handed).1
  journal : exists lines, m.journal = m₀.journal ++ lines ∧
    (m₀.sink.receive handed).2.Sublist lines

section Delivers

variable {m₀ m m' : Simulation} {us : List Update} {handed : List Report}

theorem Delivers.move (h : Delivers m₀ us handed m) (hadds : m.Adds m') {rs : List Report}
    {vs : List Update} (hjobs : m'.session.jobs.filterMap Job.report? =
      m.session.jobs.filterMap Job.report? ++ rs) (htold : List.Forall₂ Report.Tells rs vs) :
    Delivers m₀ (us ++ vs) handed m' := by
  rcases hadds with ⟨hsink, more, hmore⟩
  rcases h.journal with ⟨lines, hlines, hsublist⟩
  constructor
  case told =>
    rw [hjobs, ← List.append_assoc]
    exact List.rel_append h.told htold
  case sink => rw [hsink, h.sink]
  case journal =>
    refine ⟨lines ++ more, ?_, hsublist.trans (List.sublist_append_left _ _)⟩
    rw [hmore, hlines, List.append_assoc]

theorem Delivers.keep (h : Delivers m₀ us handed m) (hadds : m.Adds m')
    (hjobs : m'.session.jobs.filterMap Job.report? = m.session.jobs.filterMap Job.report?) :
    Delivers m₀ us handed m' := by
  rw [← List.append_nil us]
  exact h.move hadds (hjobs.trans (List.append_nil _).symm) .nil

theorem Delivers.hand (h : Delivers m₀ us handed m) {r : Report} {rest : List Job}
    (hjobs : m.session.jobs = .report r :: rest) :
    Delivers m₀ us (handed ++ [r]) ((m.withJobs rest).perform (.report r)) := by
  have htold := h.told
  rcases h.journal with ⟨lines, hlines, hsublist⟩
  rw [hjobs] at htold
  rw [perform_report_eq]
  constructor
  case told =>
    rw [List.append_assoc]
    exact htold
  case sink =>
    rw [Sink.receive_concat, ← h.sink]
    rfl
  case journal =>
    refine ⟨lines ++ (m.sink.take r).2, ?_, ?_⟩
    · show m.journal ++ _ = _
      rw [hlines, List.append_assoc]
      rfl
    · rw [Sink.receive_concat, ← h.sink]
      exact hsublist.append (List.Sublist.refl _)

def HasDelivered (m₀ : Simulation) (us : List Update) (m : Simulation) : Prop :=
  exists handed, Delivers m₀ us handed m

theorem HasDelivered.keep (h : HasDelivered m₀ us m) (hadds : m.Adds m')
    (hjobs : m'.session.jobs.filterMap Job.report? = m.session.jobs.filterMap Job.report?) :
    HasDelivered m₀ us m' := by
  rcases h with ⟨handed, h⟩
  exact ⟨handed, h.keep hadds hjobs⟩

/-!
# What a user does
-/

theorem HasDelivered.tick (h : HasDelivered m₀ us m) :
    HasDelivered m₀ (us ++ m.tick.1.toOption.toList) m.tick.2 := by
  rcases h with ⟨handed, h⟩
  by_cases hahead : m.session.source.ahead? = some 0
  · have hover := tick_eq_error (Course.tick_of_ahead?_zero (c := m.session.course) hahead)
    have hjobs := Session.filterMap_jobsAfterStop (p := Job.report?) rfl rfl m.session
    rw [hover.1]
    refine ⟨handed, ?_⟩
    show Delivers m₀ (us ++ []) handed m.tick.2
    rw [List.append_nil]
    refine h.keep m.adds_tick ?_
    rw [hover.2.2]
    exact hjobs
  · rcases Course.tick_of_ahead?_ne (c := m.session.course) hahead with ⟨u, c, htick, -⟩
    have hmoved := tick_eq_ok htick
    rw [hmoved.1]
    have htold : List.Forall₂ Report.Tells [.exactly u.coordinate m.clock.instant u.speed] [u] :=
      .cons ⟨rfl, rfl, rfl⟩ .nil
    refine ⟨handed, h.move m.adds_tick ?_ htold⟩
    rw [hmoved.2.2, List.filterMap_append]
    rfl

theorem HasDelivered.seek (h : HasDelivered m₀ us m) (index : Nat) :
    HasDelivered m₀ (us ++ (m.seek index).1.toOption.toList) (m.seek index).2 := by
  rcases h with ⟨handed, h⟩
  cases hseek : m.session.source.seek index with
  | error e =>
      refine ⟨handed, ?_⟩
      have hsame : m.seek index = (.error e, m) := by
        simp [Simulation.seek, Session.seek, hseek, Except.map]
      rw [hsame]
      show Delivers m₀ (us ++ []) handed m
      rw [List.append_nil]
      exact h
  | ok next =>
      rcases next with ⟨u, source⟩
      have hmoved : m.seek index =
          (.ok u, { m with
            session := { m.session with
              source
              last := some u
              jobs := m.session.jobs ++ [Session.reportJob u m.clock.instant] } }) := by
        simp [Simulation.seek, Session.seek, hseek, Except.map]
      have hadds := m.adds_seek index
      rw [hmoved] at hadds ⊢
      have htold : List.Forall₂ Report.Tells [.exactly u.coordinate m.clock.instant u.speed] [u] :=
        .cons ⟨rfl, rfl, rfl⟩ .nil
      refine ⟨handed, h.move hadds ?_ htold⟩
      rw [List.filterMap_append]
      rfl

theorem HasDelivered.start (h : HasDelivered m₀ us m) : HasDelivered m₀ us m.start.2 := by
  refine h.keep m.adds_start ?_
  cases hstart : m.session.scheduler.start m.clock.now <;>
    simp [Simulation.start, Session.start, hstart, note, Job.report?]

theorem HasDelivered.stop (h : HasDelivered m₀ us m) : HasDelivered m₀ us m.stop :=
  h.keep m.adds_stop (Session.filterMap_jobsAfterStop rfl rfl m.session)

theorem HasDelivered.setMultiplier (h : HasDelivered m₀ us m) (multiplier : Nat) :
    HasDelivered m₀ us (m.setMultiplier multiplier).2 := by
  refine h.keep (m.adds_setMultiplier multiplier) ?_
  have hjobs := Session.filterMap_jobsAfterStop (p := Job.report?) rfl rfl m.session
  cases hset : m.session.scheduler.setMultiplier m.clock.now multiplier with
  | error e => simp [Simulation.setMultiplier, Session.setMultiplier, hset, Except.map]
  | ok scheduler =>
      simp only [Simulation.setMultiplier, Session.setMultiplier, hset, Except.map]
      split
      · rw [List.filterMap_append, hjobs]
        exact List.append_nil _
      · rfl

theorem HasDelivered.reset (h : HasDelivered m₀ us m) : HasDelivered m₀ us m.reset := by
  refine h.keep m.adds_reset ?_
  show (m.session.jobsAfterStop.map Job.withoutFetch).filterMap Job.report? = _
  rw [List.filterMap_map, ← Session.filterMap_jobsAfterStop (p := Job.report?) rfl rfl m.session]
  congr 1
  funext job
  cases job <;> rfl

theorem HasDelivered.observe (h : HasDelivered m₀ us m) {snapshots : List Snapshot}
    {observed : Calendar.Instant} (hobserve : m.observe snapshots observed = some m') :
    HasDelivered m₀ us m' := by
  refine h.keep (adds_observe hobserve) ?_
  simp only [Simulation.observe, Option.map_eq_some_iff, Prod.exists] at hobserve
  rcases hobserve with ⟨s, lines, hsession, rfl⟩
  rw [session_note, Session.observe_eq hsession]

/-!
# What happens meanwhile
-/

theorem HasDelivered.takeAnswer (h : HasDelivered m₀ us m) (htake : m.takeAnswer = some m') :
    HasDelivered m₀ us m' := by
  refine h.keep (adds_takeAnswer htake) ?_
  cases hanswers : m.session.answers with
  | nil =>
      simp only [Simulation.takeAnswer, hanswers, Option.some.injEq] at htake
      rw [htake]
  | cons a rest => rw [(takeAnswer_eq hanswers htake).2.2]

theorem HasDelivered.work (h : HasDelivered m₀ us m) {job : Job} {rest : List Job}
    (hjobs : m.session.jobs = job :: rest) :
    HasDelivered m₀ us ((m.withJobs rest).perform job) := by
  have hrest := filterMap_perform (p := Job.report?) rfl (m.withJobs rest) job
  have hfirst (hnone : job.report? = none) :
      ((m.withJobs rest).perform job).session.jobs.filterMap Job.report? =
        m.session.jobs.filterMap Job.report? := by
    rw [hrest, hjobs, List.filterMap_cons_none hnone]
    rfl
  cases job with
  | report r =>
      rcases h with ⟨handed, h⟩
      exact ⟨_, h.hand hjobs⟩
  | fetch route => exact h.keep ⟨rfl, [], (List.append_nil _).symm⟩ (hfirst rfl)
  | alarm => exact h.keep ⟨rfl, [], (List.append_nil _).symm⟩ (hfirst rfl)
  | void => exact h.keep ⟨rfl, [], (List.append_nil _).symm⟩ (hfirst rfl)

end Delivers

end Simulation

namespace Run

variable {m₀ : Simulation}

theorem law_hasDelivered :
    Law (·.isInTurn = true) (Simulation.HasDelivered m₀) where
  reschedule := fun _ hm => hm.keep ⟨rfl, [], (List.append_nil _).symm⟩ rfl
  tick := fun hm => hm.tick
  answer := fun hm _ htake => hm.takeAnswer htake
  work := by
    intro us m index job hm hindex hjob
    have hzero : index = 0 := by simpa [Event.isInTurn] using hindex
    subst hzero
    cases hjobs : m.session.jobs with
    | nil => simp [hjobs] at hjob
    | cons first rest =>
        rw [hjobs, List.getElem?_cons_zero, Option.some.injEq] at hjob
        subst hjob
        exact hm.work hjobs
  pass := fun time hm =>
    hm.keep (Simulation.adds_passTo _ time) (Simulation.filterMap_passTo rfl _ time)

theorem Leads.hasDelivered {r : Run} {es : List Event} {us : List Update} {turn : Turn}
    (h : r.Leads es us turn) (hes : ∀ e ∈ es, e.isInTurn = true) {before : List Update}
    (hr : Simulation.HasDelivered m₀ before r.simulation) {m : Simulation}
    (hm : turn.simulation? = some m) : Simulation.HasDelivered m₀ (before ++ us) m :=
  law_hasDelivered.leads h hes hr hm

end Run

namespace Simulation

variable {m₀ m m' : Simulation} {before : List Update}

/-!
# Any sequence of commands
-/

theorem HasDelivered.beginRun (h : HasDelivered m₀ before m) (limit deadline : Option Nat) :
    HasDelivered m₀ before (m.beginRun limit deadline).2.simulation := by
  simp only [Simulation.beginRun]
  split
  · exact h
  · exact h.start

theorem Does.hasDelivered {command : Command} {es : List Event} {reply : Reply}
    (h : m.Does command es reply m') (hes : ∀ e ∈ es, e.isInTurn = true)
    (hm : HasDelivered m₀ before m) (view : View) :
    HasDelivered m₀ (before ++ Act.positions ⟨command, es, reply, view⟩) m' := by
  cases h with
  | tick =>
      have htick := hm.tick
      cases hresult : m.tick.1 <;> simpa [hresult, Act.positions, Except.toOption] using htick
  | seek index =>
      have hseek := hm.seek index
      cases hresult : (m.seek index).1 <;>
        simpa [hresult, Act.positions, Except.toOption] using hseek
  | start => simpa [Act.positions] using hm.start
  | stop => simpa [Act.positions] using hm.stop
  | setMultiplier multiplier => simpa [Act.positions] using hm.setMultiplier multiplier
  | reset => simpa [Act.positions] using hm.reset
  | observe hobserve => simpa [Act.positions] using hm.observe hobserve
  | refuse he => simpa [Act.positions] using hm.beginRun _ _
  | run hbegin hleads => exact (hleads.hasDelivered hes (hm.beginRun _ _) rfl).stop
  | settle hleads hquiet hsettled => exact hleads.hasDelivered hes hm rfl
  | idle hleads houtside => exact hleads.hasDelivered hes hm rfl

theorem Proceeds.hasDelivered {log : List Act} (h : m.Proceeds log m')
    (hlog : ∀ a ∈ log, a.IsInTurn) (hm : HasDelivered m₀ [] m) :
    HasDelivered m₀ (log.flatMap Act.positions) m' := by
  induction h with
  | nil => exact hm
  | step h hdoes ih =>
      rcases List.forall_mem_append.mp hlog with ⟨hbefore, hlast⟩
      rw [List.flatMap_append, List.flatMap_singleton]
      exact hdoes.hasDelivered (hlast _ (List.mem_singleton_self _)) (ih hbefore) _

/-!
# What the receiver has got in the end
-/

/-- Whether a receiver has got reports of some positions, each once and in order, and has told in
the journal what it tells of them. -/
def HasReported (m₀ : Simulation) (us : List Update) (m : Simulation) : Prop :=
  exists rs, List.Forall₂ Report.Tells rs us ∧ m.sink = (m₀.sink.receive rs).1 ∧
    (∀ kept, m₀.sink = .memory kept → m.sink = .memory (kept ++ rs)) ∧
    (∀ f, m₀.sink = .file f → f.isOpen = true →
      m.sink = .file { f with queue := f.queue ++ rs }) ∧
    exists lines, m.journal = m₀.journal ++ lines ∧ (m₀.sink.receive rs).2.Sublist lines ∧
      ∀ driver merchant, m₀.sink = .journal driver merchant →
        (rs.flatMap fun r => Journal.info (r.describe driver merchant)).Sublist lines

theorem HasDelivered.hasReported {us : List Update} (h : HasDelivered m₀ us m)
    (hsettled : m.IsSettled) : HasReported m₀ us m := by
  rcases h with ⟨rs, h⟩
  have hnone : m.session.jobs.filterMap Job.report? = [] := by
    rw [List.filterMap_eq_nil_iff]
    intro job hjob
    have hinner := hsettled.jobs job hjob
    cases job <;> first | rfl | cases hinner
  have htold := h.told
  rw [hnone, List.append_nil] at htold
  rcases h.journal with ⟨lines, hlines, hsublist⟩
  refine ⟨rs, htold, h.sink, ?_, ?_, lines, hlines, hsublist, ?_⟩
  · intro kept hkept
    rw [h.sink, hkept, Sink.receive_memory]
  · intro f hf hopen
    rw [h.sink, hf, Sink.receive_file hopen]
  · intro driver merchant hsink
    rw [hsink, Sink.receive_journal] at hsublist
    exact hsublist

/-- A new session, whatever commands it is given, reports each position that a tick takes or a jump
reaches once and in order, and nothing else, as long as work is done in order; all is reported as
soon as it is settled, and it can be settled unless an answer leads beyond the calendar. What it
shows does not depend on who receives the reports. -/
theorem settle_hasReported {config : Config} {source : Source}
    (hnew : m₀.session.IsNew config source) :
    (∀ log m, m₀.Proceeds log m → (∀ a ∈ log, a.IsInTurn) →
        (∀ es reply m', m.Does .settle es reply m' → (∀ e ∈ es, e.isInTurn = true) →
          HasReported m₀ (log.flatMap Act.positions) m') ∧
        (∀ m', m.settle = some m' → HasReported m₀ (log.flatMap Act.positions) m') ∧
        (m₀.feed.InCalendar → exists m', m.settle = some m')) ∧
      ∀ sink journal, m₀.Alike { m₀ with sink, journal } := by
  constructor
  · intro log m hproceeds hlog
    have hnone : m₀.session.jobs = [] ∧ m₀.session.answers = [] := by
      rcases hnew with ⟨s, stops, hs, hsession⟩
      rcases Session.new_eq_ok hs with ⟨offset, -, rfl, -, -⟩
      rw [hsession]
      exact ⟨rfl, rfl⟩
    have hbegins : HasDelivered m₀ [] m₀ := by
      refine ⟨[], ?_, rfl, [], (List.append_nil _).symm, .slnil⟩
      rw [hnone.1]
      exact .nil
    have hdelivered := hproceeds.hasDelivered hlog hbegins
    have hsettles : ∀ es reply m', m.Does .settle es reply m' → (∀ e ∈ es, e.isInTurn = true) →
        HasReported m₀ (log.flatMap Act.positions) m' := by
      intro es reply m' hdoes hes
      have hlater := hdoes.hasDelivered hes hdelivered m'.session.view
      cases hdoes with
      | settle hleads hquiet hsettled =>
          rw [show Act.positions _ = [] from rfl, List.append_nil] at hlater
          exact hlater.hasReported hsettled
    refine ⟨hsettles, fun m' hm' => ?_, fun hfeed => ?_⟩
    · rcases m.settle_cases.1 m' hm' with ⟨es, hdoes, hes⟩
      exact hsettles es _ m' hdoes hes
    · have hwithin : m₀.InCalendar := ⟨hfeed, fun a ha => by simp [hnone.2] at ha⟩
      exact (hproceeds.inCalendar hwithin).settle
  · intro sink journal
    have hakin : m₀.Akin { m₀ with sink, journal } :=
      ⟨m₀, resembles_self m₀, .none m₀.session.names, (Session.after_none _).symm, rfl, rfl⟩
    exact hakin.alike

theorem settle_hasReported_lone :
    exists m' r, (standard (.playback .lone) .silent).tick.2.reset.settle = some m' ∧
      m'.sink = .memory [r] ∧ r.coordinate = ⟨22.5, 88.25⟩ ∧ r.accuracy = 0 := by
  have hnew : (standard (.playback .lone) .silent).session.IsNew .standard (.playback .lone) :=
    ⟨.standard (.playback .lone), [], Session.new_standard _, rfl⟩
  have hlog : (standard (.playback .lone) .silent).Proceeds
      ([] ++ [⟨.tick, [], .position (standard (.playback .lone) .silent).tick.1,
        (standard (.playback .lone) .silent).tick.2.session.view⟩] ++
          [⟨.reset, [], .done, (standard (.playback .lone) .silent).tick.2.reset.session.view⟩])
      (standard (.playback .lone) .silent).tick.2.reset :=
    .step (.step .nil (.tick _)) (.reset _)
  have hmain := (settle_hasReported hnew).1 _ _ hlog (by simp [Act.IsInTurn])
  rcases hmain.2.2 trivial with ⟨m', hm'⟩
  rcases hmain.2.1 m' hm' with ⟨rs, htold, -, hmemory, -⟩
  have hone : List.Forall₂ Report.Tells rs
      [.ofFrame (Player.lone.frame 0 ⟨"123", "ride", ⟨0, 0⟩, ⟨22.5, 88.25⟩, 0⟩)] := htold
  cases hone with
  | cons hr hrest =>
      rename_i r rest
      cases hrest
      exact ⟨m', r, hm', hmemory [] rfl, hr.coordinate, hr.accuracy⟩

end Simulation
end TransitSim
