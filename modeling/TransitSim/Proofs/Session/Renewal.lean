import TransitSim.Proofs.Eta.Observing
import TransitSim.Proofs.Session.Kinship

/-!
# Beginning anew

A session that is reset differs from a new one in its past only. For this, what a session holds has
to fit together in all states: the scheduler has the speed of the settings, the tracker has their
offset, no tick of the queue is of a generation to come, and the ticks in the queue of a scheduler
that is not running are of earlier generations. So no tick, no request and no answer from before the
reset is ever heard of again.
-/

namespace TransitSim

theorem Source.mode_seek {s s' : Source} {index : Nat} {u : Update}
    (h : s.seek index = .ok (u, s')) : s'.mode = s.mode := by
  cases s with
  | route follower speed step => cases h
  | playback player =>
      cases hseek : player.seek index with
      | error e => simp [seek, hseek, bind, Except.bind] at h
      | ok next =>
          simp only [seek, hseek, bind, Except.bind, Except.ok.injEq, Prod.mk.injEq] at h
          rw [← h.2]
          rfl

theorem Mode.baseInterval_multiplier (mode : Mode) (c : Config) (multiplier : Nat) :
    mode.baseInterval { c with multiplier } = mode.baseInterval c := by
  cases mode <;> rfl

theorem Source.mode_reset (s : Source) : s.reset.mode = s.mode := by
  cases s <;> rfl

namespace Scheduler

@[simp] theorem base_stop (s : Scheduler) : s.stop.base = s.base := by
  simp only [stop]
  split <;> rfl

@[simp] theorem multiplier_stop (s : Scheduler) : s.stop.multiplier = s.multiplier := by
  simp only [stop]
  split <;> rfl

/-!
# The generations of ticks
-/

def Ordered (s : Scheduler) : Prop :=
  ∀ t ∈ s.queue, t.generation ≤ s.generation ∧ (s.isRunning = false → t.generation < s.generation)

variable {s : Scheduler}

theorem Ordered.stop (h : s.Ordered) : s.stop.Ordered := by
  cases hrunning : s.isRunning with
  | true =>
      rw [stop_of_running hrunning]
      intro t ht
      have hle : t.generation ≤ s.generation := (h t ht).1
      exact ⟨Nat.le_succ_of_le hle, fun _ => Nat.lt_succ_of_le hle⟩
  | false =>
      rw [stop_of_idle hrunning]
      exact h

theorem Ordered.spawn (h : s.Ordered) (now : Nat) : (s.spawn now).Ordered :=
  fun t ht => ⟨(h t ht).1, nofun⟩

theorem Ordered.setMultiplier (h : s.Ordered) {s' : Scheduler} {now multiplier : Nat}
    (hset : s.setMultiplier now multiplier = .ok s') : s'.Ordered := by
  rcases setMultiplier_eq_ok hset with ⟨-, -, rfl⟩
  split
  · exact fun t ht => ⟨Nat.le_succ_of_le (h t ht).1, nofun⟩
  · exact h

theorem Ordered.fireTimes (h : s.Ordered) (hready : s.Ready) (count : Nat) :
    (s.fireTimes count).Ordered := by
  cases htimer : s.timer with
  | none => simpa [Scheduler.fireTimes, htimer] using h
  | some t =>
      intro tick hmem
      rw [queue_fireTimes htimer, List.mem_append] at hmem
      have hrunning : s.isRunning = true := by simp [isRunning, htimer]
      rw [generation_fireTimes, isRunning_fireTimes, hrunning]
      refine ⟨?_, fun hidle => absurd hidle (by decide)⟩
      rcases hmem with hold | hnew
      · exact (h tick hold).1
      · rcases List.mem_map.mp hnew with ⟨i, -, rfl⟩
        exact Nat.le_of_eq (hready.generation_eq t htimer)

theorem Ordered.of_tail (h : s.Ordered) {t : Tick} {rest : List Tick}
    (hqueue : s.queue = t :: rest) : ({ s with queue := rest } : Scheduler).Ordered :=
  fun tick hmem => h tick (hqueue ▸ List.mem_cons_of_mem t hmem)

end Scheduler

/-!
# What fits together
-/

/-- Whether what a session holds fits together. -/
structure Session.Coherent (s : Session) : Prop where
  base : s.scheduler.base = s.source.mode.baseInterval s.config
  multiplier : s.scheduler.multiplier = s.config.multiplier
  offset : s.config.offset? = some s.tracker.offset
  ordered : s.scheduler.Ordered
  alarms : s.isRunning = false → ∀ job ∈ s.jobs, job.isAlarm = false

namespace Session

variable {s s' : Session}

theorem isAlarm_withoutAlarm (job : Job) : job.withoutAlarm.isAlarm = false := by
  cases job <;> rfl

theorem jobsAfterStop_not_isAlarm (h : s.Coherent) :
    ∀ job ∈ s.jobsAfterStop, job.isAlarm = false := by
  intro job hjob
  simp only [jobsAfterStop] at hjob
  split at hjob
  · rename_i hidle
    exact h.alarms (by simpa using hidle) job hjob
  · split at hjob
    · rcases List.mem_map.mp hjob with ⟨before, -, rfl⟩
      exact isAlarm_withoutAlarm before
    · rename_i hnone
      rcases List.mem_append.mp hjob with hold | hnew
      · simp only [List.any_eq_true, not_exists, not_and, Bool.not_eq_true] at hnone
        exact hnone job hold
      · rw [List.mem_singleton.mp hnew]
        rfl

theorem Coherent.stopTimer (h : s.Coherent) : s.stopTimer.Coherent where
  base := (Scheduler.base_stop _).trans h.base
  multiplier := (Scheduler.multiplier_stop _).trans h.multiplier
  offset := h.offset
  ordered := h.ordered.stop
  alarms := fun _ => jobsAfterStop_not_isAlarm h

theorem Coherent.of_keeps (h : s.Coherent) (hready : s.scheduler.Ready) (hkeeps : s.Keeps s')
    (hoffset : s'.tracker.offset = s.tracker.offset)
    (halarms : s.isRunning = false → ∀ job ∈ s'.jobs, job.isAlarm = false) : s'.Coherent := by
  rcases hkeeps.scheduler with ⟨count, hfired⟩
  have hsource : s'.source = s.source := congrArg Course.source hkeeps.course
  constructor
  case base => rw [hfired, Scheduler.base_fireTimes, hsource, hkeeps.config, h.base]
  case multiplier => rw [hfired, Scheduler.multiplier_fireTimes, hkeeps.config, h.multiplier]
  case offset => rw [hkeeps.config, hoffset, h.offset]
  case ordered =>
    rw [hfired]
    exact h.ordered.fireTimes hready count
  case alarms =>
    intro hidle
    exact halarms (hkeeps.isRunning.symm.trans hidle)

theorem offset_observe {lines : Journal} {snapshots : List Snapshot}
    {observed : Calendar.Instant} (h : s.observe snapshots observed = some (s', lines)) :
    s'.tracker.offset = s.tracker.offset := by
  cases hrespond : s.tracker.respond snapshots observed with
  | none => simp [observe, hrespond] at h
  | some told =>
      simp only [observe, hrespond, bind, Option.bind, Option.some.injEq, Prod.mk.injEq] at h
      rcases h with ⟨rfl, -⟩
      exact Tracker.offset_respond hrespond

end Session

namespace Simulation

variable {m m' : Simulation}

theorem jobs_perform_of_idle (h : m.session.isRunning = false) (job : Job) :
    (m.perform job).session.jobs = m.session.jobs := by
  cases job with
  | void => rfl
  | fetch route => rfl
  | report r =>
      rw [(m.perform_report r).1]
  | alarm =>
      have hnone : m.session.scheduler.timer = none := by
        simpa [Session.isRunning, Scheduler.isRunning] using h
      simp [perform, ring, Scheduler.dueBy, hnone, Scheduler.burst]

theorem offset_perform (job : Job) :
    (m.perform job).session.tracker.offset = m.session.tracker.offset := by
  cases job with
  | void | fetch route | alarm => rfl
  | report r => rw [(m.perform_report r).1]

theorem coherent_perform (h : m.session.Coherent) (hready : m.session.scheduler.Ready) (job : Job) :
    (m.perform job).session.Coherent :=
  h.of_keeps hready (keeps_perform m job) (offset_perform job) fun hidle other hmem =>
    h.alarms hidle other (jobs_perform_of_idle hidle job ▸ hmem)

theorem coherent_foldl_perform (h : m.session.Coherent) (hready : m.session.scheduler.Ready)
    (jobs : List Job) : (jobs.foldl perform m).session.Coherent := by
  induction jobs generalizing m with
  | nil => exact h
  | cons job rest ih =>
      exact ih (coherent_perform h hready job) ((keeps_perform m job).ready hready)

theorem coherent_withJobs (h : m.session.Coherent) {jobs : List Job}
    (hjobs : ∀ job ∈ jobs, job ∈ m.session.jobs) : (m.withJobs jobs).session.Coherent :=
  ⟨h.base, h.multiplier, h.offset, h.ordered, fun hidle job hmem =>
    h.alarms hidle job (hjobs job hmem)⟩

theorem coherent_takeAnswer (h : m.session.Coherent) (htake : m.takeAnswer = some m') :
    m'.session.Coherent := by
  cases hanswers : m.session.answers with
  | nil =>
      simp only [takeAnswer, hanswers, Option.some.injEq] at htake
      exact htake ▸ h
  | cons a rest =>
      have hsession := (takeAnswer_eq hanswers htake).2.2
      have hoffset : m'.session.tracker.offset = m.session.tracker.offset := by
        simp only [takeAnswer, hanswers, Session.apply, Option.map_eq_some_iff,
          Prod.exists] at htake
        rcases htake with ⟨s, lines, happly, rfl⟩
        split at happly
        · have hobserved := Session.offset_observe happly
          exact hobserved
        · cases happly
          rfl
      rw [hsession]
      exact ⟨h.base, h.multiplier, h.offset.trans (congrArg some hoffset.symm), h.ordered, h.alarms⟩

theorem coherent_passTo (h : m.session.Coherent) (hready : m.session.scheduler.Ready) (time : Nat) :
    (m.passTo time).session.Coherent := by
  refine h.of_keeps hready (keeps_passTo m time) ?_ ?_
  · simp only [passTo]
    split <;> rfl
  · intro hidle job hjob
    have hnone : m.session.scheduler.timer = none := by
      simpa [Session.isRunning, Scheduler.isRunning] using hidle
    simp only [passTo, isRinging, Scheduler.nextWake?, hnone, Option.map_none, Bool.and_false,
      Bool.false_eq_true, if_false] at hjob
    exact h.alarms hidle job hjob

theorem coherent_sleep (h : m.session.Coherent) (hready : m.session.scheduler.Ready) (ms : Nat) :
    (m.sleep ms).session.Coherent := by
  by_cases hms : ms = 0
  · rw [sleep, if_pos hms]
    exact h
  · have hwaits (n : Simulation) (hn : n.session.Coherent) (hnReady : n.session.scheduler.Ready) :
        (({ n with
            session :=
              { n.session with
                scheduler := (n.session.scheduler.sleep n.clock.now ms).1 } } :
          Simulation).passTo (n.session.scheduler.sleep n.clock.now ms).2).session.Coherent := by
      have hfired : n.session.Keeps
          { n.session with scheduler := (n.session.scheduler.sleep n.clock.now ms).1 } := by
        refine ⟨rfl, rfl, rfl, ?_⟩
        simp only [Scheduler.sleep, hms, if_false]
        exact ⟨_, rfl⟩
      exact coherent_passTo (m := { n with session := _ })
        (hn.of_keeps hnReady hfired rfl hn.alarms) (hfired.ready hnReady) _
    rw [sleep, if_neg hms]
    exact hwaits _
      (coherent_foldl_perform (m := m.withJobs [])
        (coherent_withJobs h fun _ hmem => absurd hmem List.not_mem_nil) hready _)
      ((keeps_foldl_perform (m.withJobs []) _).ready hready)

/-!
# What a user does
-/

theorem coherent_tick (h : m.session.Coherent) : m.tick.2.session.Coherent := by
  by_cases hahead : m.session.course.source.ahead? = some 0
  · rw [(tick_eq_error (Course.tick_of_ahead?_zero hahead)).2.2]
    exact h.stopTimer
  · rcases Course.tick_of_ahead?_ne hahead with ⟨u, c, htick, -, hmode, -⟩
    rw [(tick_eq_ok htick).2.2]
    constructor
    case base =>
      show m.session.scheduler.base = c.source.mode.baseInterval m.session.config
      rw [hmode]
      exact h.base
    case multiplier => exact h.multiplier
    case offset => exact h.offset
    case ordered => exact h.ordered
    case alarms =>
      intro hidle job hjob
      rcases List.mem_append.mp hjob with hold | hnew
      · exact h.alarms hidle job hold
      · simp only [List.mem_cons, List.not_mem_nil, or_false] at hnew
        rcases hnew with rfl | rfl <;> rfl

theorem coherent_seek (h : m.session.Coherent) (index : Nat) :
    (m.seek index).2.session.Coherent := by
  cases hseek : m.session.source.seek index with
  | error e => simpa [seek, Session.seek, hseek, Except.map] using h
  | ok next =>
      rcases next with ⟨u, source⟩
      simp only [seek, Session.seek, hseek, Except.map]
      constructor
      case base =>
        show m.session.scheduler.base = source.mode.baseInterval m.session.config
        rw [Source.mode_seek hseek]
        exact h.base
      case multiplier => exact h.multiplier
      case offset => exact h.offset
      case ordered => exact h.ordered
      case alarms =>
        intro hidle job hjob
        rcases List.mem_append.mp hjob with hold | hnew
        · exact h.alarms hidle job hold
        · rw [List.mem_singleton.mp hnew]
          rfl

theorem coherent_start (h : m.session.Coherent) : m.start.2.session.Coherent := by
  cases hstart : m.session.scheduler.start m.clock.now with
  | error e => simpa [start, Session.start, hstart] using h
  | ok scheduler =>
      rcases Scheduler.start_eq_ok hstart with ⟨-, rfl⟩
      simp only [start, Session.start, hstart]
      refine ⟨h.base, h.multiplier, h.offset, h.ordered.spawn _, ?_⟩
      intro hidle
      cases hidle

theorem coherent_setMultiplier (h : m.session.Coherent) (multiplier : Nat) :
    (m.setMultiplier multiplier).2.session.Coherent := by
  cases hset : m.session.scheduler.setMultiplier m.clock.now multiplier with
  | error e => simpa [setMultiplier, Session.setMultiplier, hset, Except.map] using h
  | ok scheduler =>
      have hordered := h.ordered.setMultiplier hset
      have hbase : m.session.scheduler.base =
          m.session.source.mode.baseInterval { m.session.config with multiplier } :=
        h.base.trans (Mode.baseInterval_multiplier ..).symm
      simp only [setMultiplier, Session.setMultiplier, hset, Except.map]
      rcases Scheduler.setMultiplier_eq_ok hset with ⟨-, -, rfl⟩
      cases hrunning : m.session.scheduler.isRunning with
      | true =>
          rw [hrunning, if_pos rfl] at hordered
          simp only [if_true]
          refine ⟨hbase, rfl, h.offset, hordered, ?_⟩
          intro hidle
          cases hidle
      | false =>
          rw [hrunning, if_neg Bool.false_ne_true] at hordered
          have hidle : ¬m.session.isRunning = true := by simp [Session.isRunning, hrunning]
          simp only [hidle, Bool.false_eq_true, if_false]
          exact ⟨hbase, rfl, h.offset, hordered, fun _ => h.alarms hrunning⟩

theorem coherent_reset (h : m.session.Coherent) : m.reset.session.Coherent := by
  have hstopped := h.stopTimer
  constructor
  case base =>
    refine hstopped.base.trans ?_
    show m.session.source.mode.baseInterval m.session.config =
      m.session.source.reset.mode.baseInterval m.session.config
    rw [Source.mode_reset]
  case multiplier => exact hstopped.multiplier
  case offset => exact hstopped.offset
  case ordered => exact hstopped.ordered
  case alarms =>
    intro hidle job hjob
    rcases List.mem_map.mp hjob with ⟨before, hbefore, rfl⟩
    have hinner := hstopped.alarms hidle before hbefore
    cases before <;> first | rfl | cases hinner

theorem coherent_observe (h : m.session.Coherent) (hready : m.session.scheduler.Ready)
    {snapshots : List Snapshot} {observed : Calendar.Instant}
    (hobserve : m.observe snapshots observed = some m') : m'.session.Coherent := by
  simp only [observe, Option.map_eq_some_iff, Prod.exists] at hobserve
  rcases hobserve with ⟨s, lines, hsession, rfl⟩
  refine h.of_keeps hready (Session.keeps_observe hsession) (Session.offset_observe hsession) ?_
  rw [Session.observe_eq hsession]
  exact h.alarms

theorem coherent_of_step (h : Step m m') (hm : m.session.Coherent)
    (hready : m.session.scheduler.Ready) : m'.session.Coherent := by
  cases h with
  | withStops stops => exact ⟨hm.base, hm.multiplier, hm.offset, hm.ordered, hm.alarms⟩
  | tick => exact coherent_tick hm
  | seek index => exact coherent_seek hm index
  | start => exact coherent_start hm
  | stop => exact hm.stopTimer
  | setMultiplier multiplier => exact coherent_setMultiplier hm multiplier
  | reset => exact coherent_reset hm
  | observe hobserve => exact coherent_observe hm hready hobserve
  | receive htake =>
      cases hqueue : m.session.scheduler.queue with
      | nil => simp [Scheduler.take?, hqueue] at htake
      | cons tick rest =>
          simp only [Scheduler.take?, hqueue, Option.some.injEq, Prod.mk.injEq] at htake
          rcases htake with ⟨-, rfl⟩
          exact ⟨hm.base, hm.multiplier, hm.offset, hm.ordered.of_tail hqueue, hm.alarms⟩
  | answer hanswer => exact coherent_takeAnswer hm hanswer
  | work hjob =>
      rename_i index job
      have hleft : (m.withJobs (m.session.jobs.eraseIdx index)).session.Coherent :=
        coherent_withJobs hm fun _ hmem => List.mem_of_mem_eraseIdx hmem
      exact coherent_perform hleft hready job
  | fire htimer hdue =>
      refine hm.of_keeps hready ⟨rfl, rfl, rfl, 1, Scheduler.fire_eq_fireTimes _⟩ rfl ?_
      exact hm.alarms
  | pass time => exact coherent_passTo hm hready time
  | sleep ms => exact coherent_sleep hm hready ms

theorem Reachable.coherent (h : m.Reachable) : m.session.Coherent := by
  induction h with
  | new h clock sink feed journal =>
      rcases Session.new_eq_ok h with ⟨offset, hoffset, rfl, -, -⟩
      exact ⟨rfl, rfl, hoffset, fun _ ht => (nomatch ht), fun _ _ hjob => (nomatch hjob)⟩
  | step h hstep ih => exact coherent_of_step hstep ih h.ready

end Simulation

/-!
# New sessions for old ones
-/

def Source.anew : Source → Source
  | route follower speed step => .route (.new follower.route follower.wrap) speed step
  | playback player => .playback ⟨player.samples, 0, player.samples_ne⟩

theorem Source.reset_eq_anew (s : Source) : s.reset = s.anew := by
  cases s <;> rfl

theorem Source.mode_anew (s : Source) : s.anew.mode = s.mode := by
  rw [← reset_eq_anew, mode_reset]

theorem Session.Coherent.new_anew {s : Session} (h : s.Coherent) (hready : s.scheduler.Ready) :
    Session.new s.config s.source.anew =
      s.config.validate.map fun _ => .pristine s.config s.source.anew s.tracker.offset := by
  have hperiod : exists period,
      Period.checked (s.source.anew.mode.baseInterval s.config) s.config.multiplier =
        .ok period := by
    rw [Source.mode_anew, ← h.base, ← h.multiplier]
    exact Scheduler.checked_eq_ok_iff.mpr ⟨hready.multiplier_pos, hready.interval_pos⟩
  rcases hperiod with ⟨period, hperiod⟩
  cases hvalid : s.config.validate with
  | error e => simp [Session.new, hvalid, bind, Except.bind, Except.map]
  | ok valid =>
      simp only [Session.new, hvalid, h.offset, bind, Except.bind, Except.map,
        Scheduler.setMultiplier, Scheduler.new, hperiod]
      rfl

namespace Simulation

variable {m : Simulation}

/-- A new session with the settings, positions and stops of another one, in its surroundings. -/
def anew (m : Simulation) (offset : Calendar.Offset) (sink : Sink) (journal : Journal) :
    Simulation :=
  ⟨(Session.pristine m.session.config m.session.source.anew offset).withStops m.session.stops,
    m.clock, sink, m.feed, journal⟩

theorem ordered_reset (h : m.session.Coherent) :
    ∀ t ∈ m.reset.session.scheduler.queue, t.generation < m.reset.session.scheduler.generation :=
  fun t ht => (h.ordered.stop t ht).2 (Scheduler.isRunning_stop _)

theorem isInert_reset (h : m.session.Coherent) :
    ∀ job ∈ m.reset.session.jobs, job.isInert = true := by
  intro job hjob
  rcases List.mem_map.mp hjob with ⟨before, hbefore, rfl⟩
  have halarm := Session.jobsAfterStop_not_isAlarm h before hbefore
  cases before <;> first | rfl | cases halarm

def pastOfReset (h : m.session.Coherent) : Past where
  generations := m.reset.session.scheduler.generation
  ticks := m.reset.session.scheduler.queue
  jobs := m.reset.session.jobs
  names := m.session.names
  ticks_lt := ordered_reset h
  jobs_inert := isInert_reset h

/-- A session that is reset is a new one with a past. -/
theorem hasPast_reset (h : m.session.Coherent) (sink : Sink) (journal : Journal) :
    HasPast (pastOfReset h) (m.anew m.session.tracker.offset sink journal) m.reset := by
  have hscheduler := Scheduler.eq_after_of_idle m.session.scheduler.isRunning_stop
  rw [Scheduler.base_stop, Scheduler.multiplier_stop, h.base, h.multiplier,
    ← Source.mode_anew] at hscheduler
  refine ⟨?_, rfl, rfl⟩
  simp only [reset, Session.reset, session_note, anew, Session.after, Session.withStops,
    Session.pristine, pastOfReset, Session.stopTimer, List.append_nil, Source.reset_eq_anew,
    ← hscheduler]
  rfl

/-- A session that is reset shows what a new one shows, in whatever order things happen, and fails
as that one fails; a new one can be made whenever the settings are valid. Nothing from before the
reset is left but reports to be made. -/
theorem reset_shows_anew (h : m.Reachable) :
    exists offset, m.session.config.offset? = some offset ∧
      Session.new m.session.config m.session.source.anew =
        (m.session.config.validate.map fun _ =>
          .pristine m.session.config m.session.source.anew offset) ∧
      (∀ sink journal,
        m.reset.session.view = (m.anew offset sink journal).session.view ∧
          m.reset.Alike (m.anew offset sink journal)) ∧
      m.reset.session.answers = [] ∧ (∀ job ∈ m.reset.session.jobs, job.isInert = true) ∧
      ∀ t ∈ m.reset.session.scheduler.queue,
        t.generation < m.reset.session.scheduler.generation := by
  have hcoherent := h.coherent
  refine ⟨m.session.tracker.offset, hcoherent.offset, hcoherent.new_anew h.ready, ?_, rfl,
    isInert_reset hcoherent, ordered_reset hcoherent⟩
  intro sink journal
  have hpast := hasPast_reset hcoherent sink journal
  have hakin : m.reset.Akin (m.anew m.session.tracker.offset sink journal) :=
    ⟨_, ⟨_, hpast⟩, resembles_self _⟩
  exact ⟨hpast.view, hakin.alike⟩

theorem reset_shows_anew_underway :
    (standard (.playback .lone) .silent).start.2.tick.2.session.isRunning = true ∧
      (standard (.playback .lone) .silent).start.2.tick.2.session.jobs.countP Job.isOutward = 2 ∧
        (standard (.playback .lone) .silent).start.2.tick.2.reset.Alike
          (anew (standard (.playback .lone) .silent).start.2.tick.2 .utc .failing []) := by
  have hreachable : (standard (.playback .lone) .silent).start.2.tick.2.Reachable :=
    ((reachable_standard _ _).step (.start _)).step (.tick _)
  refine ⟨by decide +kernel, by decide +kernel, ?_⟩
  rcases reset_shows_anew hreachable with ⟨offset, hoffset, -, hshows, -⟩
  have hutc : some Calendar.Offset.utc = some offset := hoffset
  cases hutc
  exact (hshows .failing []).2

end Simulation
end TransitSim
