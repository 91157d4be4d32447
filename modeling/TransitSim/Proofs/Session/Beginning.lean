import TransitSim.Proofs.Session.Refusal
import TransitSim.Proofs.Session.Renewal

/-!
# What valid settings are good for

A session can be had exactly if its settings are valid; the checks that are made once more while it
is set up find nothing new. From then on the speed stands in two places, in the settings and in the
scheduler, and all that happens to a session keeps the two in step. So there is always time between
two ticks, the timer can be started whenever it is not running, and no run ends with an error.
-/

namespace TransitSim

namespace Session

variable {c : Config} {source : Source}

theorem multiplier_le_baseInterval (h : c.Usable) (mode : Mode) :
    c.multiplier ≤ mode.baseInterval c := by
  have hle := h.multiplier_le
  cases mode with
  | route =>
      simp only [Mode.baseInterval, Period.ofMillis, Duration.millisecond]
      omega
  | playback =>
      simp only [Mode.baseInterval, Period.ofMillis, Duration.millisecond]
      omega

theorem new_of_valid (h : c.validate = .ok ()) (source : Source) :
    exists offset, c.offset? = some offset ∧
      Session.new c source = .ok (pristine c source offset) := by
  have husable := Config.validate_eq_ok_iff.mp h
  rcases Option.isSome_iff_exists.mp (Config.offset?_isSome_iff.mpr husable.offsetMinutes) with
    ⟨offset, hoffset⟩
  have hchecked : Period.checked (source.mode.baseInterval c) c.multiplier =
      .ok (Period.of (source.mode.baseInterval c) c.multiplier) :=
    Period.checked_eq_ok_iff.mpr
      ⟨husable.multiplier_pos, multiplier_le_baseInterval husable source.mode, rfl⟩
  refine ⟨offset, hoffset, ?_⟩
  simp only [Session.new, h, hoffset, Scheduler.setMultiplier, Scheduler.new, hchecked, bind,
    Except.bind, Except.map]
  rfl

theorem new_of_invalid {e : Error} (h : c.validate = .error e) (source : Source) :
    Session.new c source = .error e := by
  simp [Session.new, h, bind, Except.bind]

theorem new_eq_error_iff {e : Error} :
    Session.new c source = .error e ↔ c.validate = .error e := by
  constructor
  · intro h
    cases hvalid : c.validate with
    | error e' =>
        rw [new_of_invalid hvalid source] at h
        cases h
        rfl
    | ok valid =>
        rcases new_of_valid hvalid source with ⟨offset, -, hnew⟩
        rw [hnew] at h
        cases h
  · exact fun h => new_of_invalid h source

theorem exists_new_iff : (exists s, Session.new c source = .ok s) ↔ c.validate = .ok () := by
  constructor
  · rintro ⟨s, hs⟩
    cases hvalid : c.validate with
    | ok valid => rfl
    | error e =>
        rw [new_of_invalid hvalid] at hs
        cases hs
  · intro h
    rcases new_of_valid h source with ⟨offset, -, hnew⟩
    exact ⟨_, hnew⟩

end Session

namespace Simulation

/-- What can be relied on in a state: the speed is that of the settings, there is time between two
ticks, a timer that is not running can be started, and no run ends with an error. -/
structure Dependable (m : Simulation) : Prop where
  multiplier : m.session.scheduler.multiplier = m.session.config.multiplier
  multiplier_pos : 0 < m.session.config.multiplier
  interval : m.session.scheduler.interval =
    m.session.mode.baseInterval m.session.config / m.session.config.multiplier
  interval_pos : 0 < m.session.scheduler.interval
  start : m.session.isRunning = false → m.start.1 = .ok ()
  begins : ∀ limit deadline, (m.beginRun limit deadline).1 = .ok ()
  leads : ∀ limit deadline es us result m',
    (m.beginRun limit deadline).2.Leads es us (.ends result m') →
      exists outcome, result = .ok outcome
  run : ∀ limit deadline e m', m.run limit deadline ≠ .ended (.error e) m'

theorem Reachable.dependable {m : Simulation} (hm : m.Reachable) : m.Dependable := by
  have hready := hm.ready
  have hcoherent := hm.coherent
  have hends : ∀ limit deadline es us result m',
      (m.beginRun limit deadline).2.Leads es us (.ends result m') →
        exists outcome, result = .ok outcome := by
    intro limit deadline es us result m' hleads
    rcases m.beginRun_eq limit deadline with ⟨b, hb, -⟩
    rw [hb] at hleads
    exact hleads.ends_ok rfl
  constructor
  case multiplier => exact hcoherent.multiplier
  case multiplier_pos => exact hcoherent.multiplier ▸ hready.multiplier_pos
  case interval =>
    rw [Scheduler.interval, hcoherent.base, hcoherent.multiplier]
    rfl
  case interval_pos => exact hready.interval_pos
  case start => exact start_of_idle hready
  case begins =>
    intro limit deadline
    rcases beginRun_of_ready hready limit deadline with ⟨b, hbegin, -⟩
    rw [hbegin]
  case leads => exact hends
  case run =>
    intro limit deadline e m' hrun
    rcases run_does hrun with ⟨es, us, hdoes, -⟩
    cases hdoes with
    | refuse he =>
        rcases beginRun_of_ready hready limit deadline with ⟨b, hbegin, -⟩
        rw [hbegin] at he
        cases he
    | run hbegin hleads =>
        rcases hends _ _ _ _ _ _ hleads with ⟨outcome, houtcome⟩
        cases houtcome

end Simulation

/-- Settings are valid exactly if each is in its range, and exactly then there is a session with
them, over a route as well as over a recording; otherwise the error is that of the settings. Every
state that a session can be in can be depended on. -/
theorem Session.exists_new_iff_usable (c : Config) (source : Source) :
    (c.validate = .ok () ↔ c.Usable) ∧
      ((exists s, Session.new c source = .ok s) ↔ c.validate = .ok ()) ∧
      (∀ e, Session.new c source = .error e ↔ c.validate = .error e) ∧
      ∀ m : Simulation, m.Reachable → m.Dependable :=
  ⟨Config.validate_eq_ok_iff, exists_new_iff, fun _ => new_eq_error_iff, fun _ hm => hm.dependable⟩

theorem Session.exists_new_iff_usable_tight :
    { Config.standard with routeInterval := 1, multiplier := 1000000 }.validate = .ok () ∧
      { Config.standard with routeInterval := 1, multiplier := 1000001 }.validate ≠ .ok () ∧
        (Simulation.standard (.playback .lone) .silent).start.2.Reachable ∧
          (Simulation.standard (.playback .lone) .silent).start.2.Dependable := by
  have hstandard := Config.validate_eq_ok_iff.mp Config.validate_standard
  have hm : (Simulation.standard (.playback .lone) .silent).start.2.Reachable :=
    (Simulation.reachable_standard _ _).step (.start _)
  have hbase := (exists_new_iff_usable
    { Config.standard with routeInterval := 1, multiplier := 1000000 } (.playback .lone)).1
  have hover := (exists_new_iff_usable
    { Config.standard with routeInterval := 1, multiplier := 1000001 } (.playback .lone)).1
  refine ⟨hbase.mpr ?_, fun hvalid => ?_, hm,
    (exists_new_iff_usable .standard (.playback .lone)).2.2.2 _ hm⟩
  · exact
      { hstandard with
        routeInterval := by decide
        multiplier_pos := by decide
        multiplier_le := by decide }
  · have hle := (hover.mp hvalid).multiplier_le
    revert hle
    decide

end TransitSim
