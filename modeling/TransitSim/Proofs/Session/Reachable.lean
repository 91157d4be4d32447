import TransitSim.Proofs.Config.Validation
import TransitSim.Proofs.Session.Course

/-!
# The states a session can be in

A session begins as configured. What may happen to it then are the operations of its user and the
events of its surroundings: work is done in any order, answers and ticks are taken, the timer fires
once it is due, and time passes. `Reachable` holds of all states that come about in this way; in
all of them the scheduler is ready, so that a start is refused only while the timer is running.
-/

namespace TransitSim
namespace Simulation

/-- One thing that happens to a simulation. -/
inductive Step : Simulation → Simulation → Prop where
  | withStops (m : Simulation) (stops : List Stop) :
      Step m { m with session := m.session.withStops stops }
  | tick (m : Simulation) : Step m m.tick.2
  | seek (m : Simulation) (index : Nat) : Step m (m.seek index).2
  | start (m : Simulation) : Step m m.start.2
  | stop (m : Simulation) : Step m m.stop
  | setMultiplier (m : Simulation) (multiplier : Nat) : Step m (m.setMultiplier multiplier).2
  | reset (m : Simulation) : Step m m.reset
  | observe {m m' : Simulation} {snapshots : List Snapshot} {observed : Calendar.Instant}
      (h : m.observe snapshots observed = some m') : Step m m'
  | receive {m : Simulation} {tick : Tick} {scheduler : Scheduler}
      (h : m.session.scheduler.take? = some (tick, scheduler)) :
      Step m { m with session := { m.session with scheduler } }
  | answer {m m' : Simulation} (h : m.takeAnswer = some m') : Step m m'
  | work {m : Simulation} {index : Nat} {job : Job} (h : m.session.jobs[index]? = some job) :
      Step m
        ({ m with session := { m.session with jobs := m.session.jobs.eraseIdx index } }.perform job)
  | fire {m : Simulation} {t : Timer} (h : m.session.scheduler.timer = some t)
      (hdue : t.due ≤ m.clock.now) :
      Step m { m with session := { m.session with scheduler := m.session.scheduler.fire } }
  | pass (m : Simulation) (time : Nat) : Step m (m.passTo time)
  | sleep (m : Simulation) (ms : Nat) : Step m (m.sleep ms)

/-- The states that come about from a session as configured. -/
inductive Reachable : Simulation → Prop where
  | new {config : Config} {source : Source} {s : Session} (h : Session.new config source = .ok s)
      (clock : Clock) (sink : Sink) (feed : Feed) (journal : Journal) :
      Reachable ⟨s, clock, sink, feed, journal⟩
  | step {m m' : Simulation} (h : Reachable m) (hstep : Step m m') : Reachable m'

end Simulation

/-!
# New sessions
-/

def Session.pristine (config : Config) (source : Source) (offset : Calendar.Offset) : Session where
  config
  source
  tracker := .new offset
  scheduler :=
    { Scheduler.new (source.mode.baseInterval config) with multiplier := config.multiplier }
  stops := []
  names := []
  board := .empty
  last := none
  ticks := 0
  jobs := []
  answers := []

def Session.IsNew (config : Config) (source : Source) (s : Session) : Prop :=
  exists s₀ stops, Session.new config source = .ok s₀ ∧ s = s₀.withStops stops

theorem Session.new_eq_ok {config : Config} {source : Source} {s : Session}
    (h : Session.new config source = .ok s) :
    exists offset, config.offset? = some offset ∧ s = pristine config source offset ∧
      0 < config.multiplier ∧
        0 < Period.of (source.mode.baseInterval config) config.multiplier := by
  cases hvalid : config.validate with
  | error e => simp [Session.new, hvalid, bind, Except.bind] at h
  | ok valid =>
      cases hoffset : config.offset? with
      | none => simp [Session.new, hvalid, hoffset, bind, Except.bind] at h
      | some offset =>
          cases hset : (Scheduler.new (source.mode.baseInterval config)).setMultiplier 0
              config.multiplier with
          | error e => simp [Session.new, hvalid, hoffset, hset, bind, Except.bind] at h
          | ok scheduler =>
              simp only [Session.new, hvalid, hoffset, hset, bind, Except.bind] at h
              cases h
              rcases Scheduler.setMultiplier_eq_ok hset with ⟨hm, hp, rfl⟩
              exact ⟨offset, rfl, rfl, hm, hp⟩

namespace Simulation

/-!
# The scheduler stays ready
-/

theorem ready_new {config : Config} {source : Source} {s : Session}
    (h : Session.new config source = .ok s) : s.scheduler.Ready := by
  rcases Session.new_eq_ok h with ⟨offset, -, rfl, hm, hp⟩
  exact
    { multiplier_pos := hm
      interval_pos := hp
      generation_eq := fun t ht => nomatch ht
      period_eq := fun t ht => nomatch ht }

theorem ready_of_step {m m' : Simulation} (h : Step m m') (hm : m.session.scheduler.Ready) :
    m'.session.scheduler.Ready := by
  cases h with
  | withStops stops => exact hm
  | tick =>
      by_cases hahead : m.session.course.source.ahead? = some 0
      · have htick := (Session.tick_eq_error (Course.tick_of_ahead?_zero hahead) m.clock.instant).2
        simp only [tick, session_note, htick]
        exact hm.stop
      · rcases Course.tick_of_ahead?_ne hahead with ⟨u, c, htick, -⟩
        simp only [tick, session_note, Session.tick_eq_ok htick]
        exact hm
  | seek index =>
      cases hseek : m.session.source.seek index with
      | error e => simpa [seek, Session.seek, hseek, Except.map] using hm
      | ok next => simpa [seek, Session.seek, hseek, Except.map] using hm
  | start =>
      cases hstart : m.session.scheduler.start m.clock.now with
      | error e => simpa [start, Session.start, hstart] using hm
      | ok scheduler =>
          rcases Scheduler.start_eq_ok hstart with ⟨-, rfl⟩
          simpa [start, Session.start, hstart] using hm.spawn m.clock.now
  | stop => exact hm.stop
  | setMultiplier multiplier =>
      cases hset : m.session.scheduler.setMultiplier m.clock.now multiplier with
      | error e => simpa [setMultiplier, Session.setMultiplier, hset, Except.map] using hm
      | ok scheduler =>
          simpa [setMultiplier, Session.setMultiplier, hset, Except.map] using
            Scheduler.ready_setMultiplier hset
  | reset => exact hm.stop
  | observe hobserve =>
      rename_i snapshots observed
      simp only [observe, Option.map_eq_some_iff, Prod.exists] at hobserve
      rcases hobserve with ⟨s, lines, hsession, rfl⟩
      exact (Session.keeps_observe hsession).ready hm
  | receive htake =>
      cases hqueue : m.session.scheduler.queue with
      | nil => simp [Scheduler.take?, hqueue] at htake
      | cons tick rest =>
          simp only [Scheduler.take?, hqueue, Option.some.injEq, Prod.mk.injEq] at htake
          rcases htake with ⟨-, rfl⟩
          exact hm.of_queue rest
  | answer hanswer => exact (keeps_takeAnswer hanswer).ready hm
  | work hjob => exact (keeps_perform _ _).ready hm
  | fire htimer hdue =>
      rw [Scheduler.fire_eq_fireTimes]
      exact hm.fireTimes 1
  | pass time => exact (keeps_passTo m time).ready hm
  | sleep ms => exact (keeps_sleep m ms).ready hm

theorem Reachable.ready {m : Simulation} (h : m.Reachable) : m.session.scheduler.Ready := by
  induction h with
  | new h clock sink feed journal => exact ready_new h
  | step h hstep ih => exact ready_of_step hstep ih

end Simulation

/-!
# Sessions with the standard settings
-/

def Session.standard (source : Source) : Session where
  config := .standard
  source
  tracker := .new .utc
  scheduler := .new (source.mode.baseInterval .standard)
  stops := []
  names := []
  board := .empty
  last := none
  ticks := 0
  jobs := []
  answers := []

theorem Session.new_standard (source : Source) :
    Session.new .standard source = .ok (.standard source) := by
  have hoffset : Config.standard.offset? = some .utc := rfl
  have hperiod : Period.checked (source.mode.baseInterval .standard) 1 =
      .ok (source.mode.baseInterval .standard) := by
    cases source <;>
      simp [Period.checked, Period.of, Source.mode, Mode.baseInterval, Period.ofMillis,
        Config.standard, Duration.millisecond]
  have hset : (Scheduler.new (source.mode.baseInterval .standard)).setMultiplier 0
      Config.standard.multiplier = .ok (Scheduler.new (source.mode.baseInterval .standard)) := by
    show (Period.checked (source.mode.baseInterval .standard) 1).map _ = _
    rw [hperiod]
    rfl
  simp only [Session.new, Config.validate_standard, hoffset, hset, bind, Except.bind]
  rfl

namespace Simulation

def standard (source : Source) (feed : Feed) : Simulation :=
  ⟨.standard source, ⟨⟨0, 0⟩, 0⟩, .memory [], feed, []⟩

theorem reachable_standard (source : Source) (feed : Feed) : (standard source feed).Reachable :=
  .new (Session.new_standard source) _ _ _ _

end Simulation

def Player.lone : Player where
  samples := [⟨"123", "ride", ⟨0, 0⟩, ⟨22.5, 88.25⟩, 0⟩]
  cursor := 0
  samples_ne := List.cons_ne_nil _ _

def Player.crossing : Player where
  samples :=
    [⟨"123", "ride", ⟨0, 0⟩, ⟨22.5, 88.25⟩, 0⟩, ⟨"123", "ride", ⟨60, 0⟩, ⟨22.75, 88.25⟩, 25⟩,
      ⟨"123", "ride", ⟨120, 0⟩, ⟨22.75, 88.5⟩, 30⟩, ⟨"123", "ride", ⟨180, 0⟩, ⟨23, 88.5⟩, 20⟩]
  cursor := 0
  samples_ne := List.cons_ne_nil _ _

def Json.estimate (ms : Nat) : Json :=
  .array [.object [
    ("vehicleInfo", .object [("upcomingStops", .array [.object [
      ("eta", .number (.natural ms)),
      ("stop", .object [("coordinate", .object [
        ("lat", .number (.real 22.5)),
        ("lon", .number (.real 88.25))])])]])]),
    ("vehicleNumber", .string "WB052366")]]

/-- A recording in which an estimate first stays in its minute and then moves by two. -/
def Recording.drifting : Recording where
  responses := [.estimate 0, .estimate 30000, .estimate 150000]
  vehicle := "WB052366"
  cursor := 0
  responses_pos := Nat.zero_lt_succ 2

namespace Simulation

def crossing : Simulation :=
  standard (.playback .crossing) (.recorded .drifting)

theorem reachable_crossing : crossing.Reachable :=
  reachable_standard _ _

end Simulation
end TransitSim
