import TransitSim.Proofs.Tick.Operations
import TransitSim.Session.Simulation

/-!
# The course of a session

Of all that a session holds, ticks read and move only a small part: the source of positions, the
last position and the number of ticks. This part is the course of the session. Work, answers, the
timer and the passing of time leave it alone, so that ticks may be compared however much of these
has happened in between.
-/

namespace TransitSim

/-- The part of a session that ticks read and move. -/
structure Course where
  source : Source
  last : Option Update
  ticks : Nat

def Session.course (s : Session) : Course := ⟨s.source, s.last, s.ticks⟩

namespace Source

/-!
# How many positions are left
-/

def ahead? : Source → Option Nat
  | route .. => none
  | playback player => some (player.length - player.cursor)

theorem next_of_ahead?_zero {s : Source} (h : s.ahead? = some 0) :
    s.next = .error .playbackComplete := by
  cases s with
  | route follower speed step => cases h
  | playback player =>
      have hend : player.samples.length ≤ player.cursor := by
        have := Option.some.inj h
        simp only [Player.length] at this
        omega
      simp [next, Player.advance, List.getElem?_eq_none hend, bind, Except.bind]

theorem next_of_ahead?_ne {s : Source} (h : s.ahead? ≠ some 0) :
    exists u s', s.next = .ok (u, s') ∧ s'.ahead? = s.ahead?.map (· - 1) ∧ s'.mode = s.mode := by
  cases s with
  | route follower speed step => exact ⟨_, _, rfl, rfl, rfl⟩
  | playback player =>
      have hlt : player.cursor < player.samples.length := by
        simp only [ahead?, Player.length, ne_eq, Option.some.injEq] at h
        omega
      refine ⟨.ofFrame (player.frame player.cursor player.samples[player.cursor]),
        .playback { player with cursor := player.cursor + 1 }, ?_, ?_, rfl⟩
      · simp [next, Player.advance, List.getElem?_eq_getElem hlt, bind, Except.bind]
      · simp only [ahead?, Player.length, Option.map_some]
        congr 1

end Source

namespace Course

/-!
# Ticks
-/

def tick (c : Course) : Except Error (Update × Course) :=
  c.source.next.map fun (u, source) => (u, ⟨source, some u, c.ticks + 1⟩)

theorem tick_of_ahead?_zero {c : Course} (h : c.source.ahead? = some 0) :
    c.tick = .error .playbackComplete := by
  simp [tick, Source.next_of_ahead?_zero h, Except.map]

theorem tick_of_ahead?_ne {c : Course} (h : c.source.ahead? ≠ some 0) :
    exists u c', c.tick = .ok (u, c') ∧ c'.source.ahead? = c.source.ahead?.map (· - 1) ∧
      c'.source.mode = c.source.mode ∧ c'.ticks = c.ticks + 1 := by
  rcases Source.next_of_ahead?_ne h with ⟨u, source, hnext, hahead, hmode⟩
  exact ⟨u, _, by simp only [tick, hnext]; rfl, hahead, hmode, rfl⟩

end Course

namespace Session

theorem tick_eq_ok {s : Session} {u : Update} {c : Course} (h : s.course.tick = .ok (u, c))
    (time : Calendar.Instant) :
    s.tick time =
      (.ok u,
        { s with
          source := c.source
          ticks := c.ticks
          last := c.last
          jobs := s.jobs ++ [reportJob u time, .fetch s.config.routeCode] },
        []) := by
  simp only [Course.tick, course] at h
  cases hnext : s.source.next with
  | error e =>
      rw [hnext] at h
      cases h
  | ok next =>
      rcases next with ⟨v, source⟩
      rw [hnext] at h
      cases h
      simp [tick, hnext]

theorem tick_eq_error {s : Session} (h : s.course.tick = .error .playbackComplete)
    (time : Calendar.Instant) :
    (s.tick time).1 = .error .playbackComplete ∧ (s.tick time).2.1 = s.stopTimer := by
  simp only [Course.tick, course] at h
  cases hnext : s.source.next with
  | ok next =>
      rw [hnext] at h
      cases h
  | error e =>
      rw [hnext] at h
      cases h
      simp [tick, hnext, Error.isPlaybackComplete]

/-!
# What leaves the course alone
-/

/-- Whether a session has come from another without a tick: the course and the settings are the
same, and of the scheduler only the timer has fired. -/
structure Keeps (s s' : Session) : Prop where
  course : s'.course = s.course
  config : s'.config = s.config
  stops : s'.stops = s.stops
  scheduler : exists n, s'.scheduler = s.scheduler.fireTimes n

theorem Keeps.of_eq {s s' : Session} (hcourse : s'.course = s.course)
    (hconfig : s'.config = s.config) (hstops : s'.stops = s.stops)
    (hscheduler : s'.scheduler = s.scheduler) : s.Keeps s' :=
  ⟨hcourse, hconfig, hstops, 0, by rw [hscheduler, Scheduler.fireTimes_zero]⟩

theorem Keeps.trans {s s' s'' : Session} (h : s.Keeps s') (h' : s'.Keeps s'') : s.Keeps s'' := by
  rcases h.scheduler with ⟨n, hn⟩
  rcases h'.scheduler with ⟨k, hk⟩
  refine ⟨h'.course.trans h.course, h'.config.trans h.config, h'.stops.trans h.stops, n + k, ?_⟩
  rw [hk, hn, Scheduler.fireTimes_fireTimes]

theorem Keeps.ready {s s' : Session} (h : s.Keeps s') (hs : s.scheduler.Ready) :
    s'.scheduler.Ready := by
  rcases h.scheduler with ⟨n, hn⟩
  rw [hn]
  exact hs.fireTimes n

theorem Keeps.isRunning {s s' : Session} (h : s.Keeps s') :
    s'.scheduler.isRunning = s.scheduler.isRunning := by
  rcases h.scheduler with ⟨n, hn⟩
  rw [hn, Scheduler.isRunning_fireTimes]

theorem observe_eq {s s' : Session} {lines : Journal} {snapshots : List Snapshot}
    {observed : Calendar.Instant} (h : s.observe snapshots observed = some (s', lines)) :
    s' = { s with names := s'.names, tracker := s'.tracker, board := s'.board } := by
  cases hrespond : s.tracker.respond snapshots observed with
  | none => simp [observe, hrespond] at h
  | some result =>
      simp only [observe, hrespond, bind, Option.bind, Option.some.injEq, Prod.mk.injEq] at h
      rcases h with ⟨rfl, -⟩
      rfl

theorem apply_eq {s s' : Session} {lines : Journal} {a : Answer}
    (h : s.apply a = some (s', lines)) :
    s' = { s with names := s'.names, tracker := s'.tracker, board := s'.board } := by
  cases hresult : a.result with
  | ok snapshots => exact observe_eq (by simpa [apply, hresult] using h)
  | error e =>
      simp only [apply, hresult, Option.some.injEq, Prod.mk.injEq] at h
      rcases h with ⟨rfl, -⟩
      rfl

theorem keeps_observe {s s' : Session} {lines : Journal} {snapshots : List Snapshot}
    {observed : Calendar.Instant} (h : s.observe snapshots observed = some (s', lines)) :
    s.Keeps s' := by
  rw [observe_eq h]
  exact .of_eq rfl rfl rfl rfl

@[simp] theorem course_stopTimer (s : Session) : s.stopTimer.course = s.course := rfl

@[simp] theorem scheduler_stopTimer (s : Session) : s.stopTimer.scheduler = s.scheduler.stop := rfl

end Session

namespace Simulation

@[simp] theorem session_note (m : Simulation) (lines : Journal) :
    (m.note lines).session = m.session := rfl

@[simp] theorem clock_note (m : Simulation) (lines : Journal) :
    (m.note lines).clock = m.clock := rfl

@[simp] theorem session_stop (m : Simulation) : m.stop.session = m.session.stopTimer := rfl

theorem keeps_perform (m : Simulation) (job : Job) : m.session.Keeps (m.perform job).session := by
  cases job with
  | alarm => exact ⟨rfl, rfl, rfl, _, rfl⟩
  | void => exact .of_eq rfl rfl rfl rfl
  | fetch route => exact .of_eq rfl rfl rfl rfl
  | report r =>
      simp only [perform]
      split <;> exact .of_eq rfl rfl rfl rfl

theorem keeps_foldl_perform (m : Simulation) (jobs : List Job) :
    m.session.Keeps (jobs.foldl perform m).session := by
  induction jobs generalizing m with
  | nil => exact .of_eq rfl rfl rfl rfl
  | cons job rest ih => exact (keeps_perform m job).trans (ih (m.perform job))

theorem keeps_performSome (m : Simulation) (count : Nat) :
    m.session.Keeps (m.performSome count).session := by
  have hleft : m.session.Keeps { m.session with jobs := m.session.jobs.drop count } :=
    .of_eq rfl rfl rfl rfl
  exact hleft.trans (keeps_foldl_perform { m with session := _ } (m.session.jobs.take count))

theorem scheduler_passTo (m : Simulation) (time : Nat) :
    (m.passTo time).session.scheduler = m.session.scheduler := by
  simp only [passTo]
  split <;> rfl

theorem clock_passTo (m : Simulation) (time : Nat) :
    (m.passTo time).clock = m.clock.forwardTo time := by
  simp only [passTo]
  split <;> rfl

theorem keeps_passTo (m : Simulation) (time : Nat) : m.session.Keeps (m.passTo time).session := by
  simp only [passTo]
  split <;> exact .of_eq rfl rfl rfl rfl

theorem takeAnswer_eq {m m' : Simulation} {a : Answer} {rest : List Answer}
    (hanswers : m.session.answers = a :: rest) (h : m.takeAnswer = some m') :
    m'.clock = m.clock ∧ m'.feed = m.feed ∧
      m'.session =
        { m.session with
          answers := rest
          names := m'.session.names
          tracker := m'.session.tracker
          board := m'.session.board } := by
  simp only [takeAnswer, hanswers, Option.map_eq_some_iff, Prod.exists] at h
  rcases h with ⟨s, lines, happly, rfl⟩
  exact ⟨rfl, rfl, Session.apply_eq happly⟩

theorem keeps_takeAnswer {m m' : Simulation} (h : m.takeAnswer = some m') :
    m.session.Keeps m'.session := by
  cases hanswers : m.session.answers with
  | nil =>
      simp only [takeAnswer, hanswers, Option.some.injEq] at h
      subst h
      exact .of_eq rfl rfl rfl rfl
  | cons a rest =>
      rw [(takeAnswer_eq hanswers h).2.2]
      exact .of_eq rfl rfl rfl rfl

theorem keeps_sleep (m : Simulation) (ms : Nat) : m.session.Keeps (m.sleep ms).session := by
  simp only [sleep]
  split
  · exact .of_eq rfl rfl rfl rfl
  · rename_i hms
    have hwork := keeps_foldl_perform { m with session := { m.session with jobs := [] } }
      (m.session.jobs.filter Job.isOutward)
    have hidle : m.session.Keeps { m.session with jobs := [] } := .of_eq rfl rfl rfl rfl
    generalize (m.session.jobs.filter Job.isOutward).foldl perform
      { m with session := { m.session with jobs := [] } } = worked at hwork ⊢
    have hfired : worked.session.Keeps
        { worked.session with
          scheduler := (worked.session.scheduler.sleep worked.clock.now ms).1 } := by
      refine ⟨rfl, rfl, rfl, ?_⟩
      simp only [Scheduler.sleep, hms, if_false]
      exact ⟨_, rfl⟩
    exact hidle.trans (hwork.trans (hfired.trans (keeps_passTo { worked with session := _ } _)))

end Simulation
end TransitSim
