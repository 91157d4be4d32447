import TransitSim.Proofs.Session.Beginning
import TransitSim.Proofs.Session.Steps

/-!
# How long settings stay valid

A change of speed is checked against the interval of the session's own mode, and a new session
against the intervals of both. So the settings of a session need not stay such that another session
can be had with them: they do exactly as long as the interval of the other mode, too, leaves time
for the multiplier. That is the only check which a session in use can come to fail.
-/

namespace TransitSim

/-!
# The checks that depend on the speed
-/

def Mode.other : Mode → Mode
  | route => playback
  | playback => route

namespace Config

def atUnitSpeed (c : Config) : Config :=
  { c with multiplier := 1 }

variable {c : Config}

theorem Usable.atUnitSpeed (h : c.Usable) : c.atUnitSpeed.Usable :=
  { h with
    multiplier_pos := Nat.le_refl 1
    multiplier_le := by
      have hroute := h.routeInterval
      have hplayback := h.playbackInterval
      show 1 ≤ 1000000 * min c.routeInterval c.playbackInterval
      omega }

theorem validate_eq_periods (h : c.atUnitSpeed.Usable) :
    c.validate =
      (Period.checked (Mode.route.baseInterval c) c.multiplier).bind fun _ =>
        (Period.checked (Mode.playback.baseInterval c) c.multiplier).map fun _ => () := by
  have hintervals : ¬(c.routeInterval = 0 ∨ c.playbackInterval = 0) := by
    have hroute : 1 ≤ c.routeInterval := h.routeInterval
    have hplayback : 1 ≤ c.playbackInterval := h.playbackInterval
    omega
  have hspeed : isUsable c.routeSpeed = true := isUsable_iff.mpr h.routeSpeed
  have hstep : isUsable c.routeTimeStep = true := isUsable_iff.mpr h.routeTimeStep
  have hoffset : c.offset?.isNone = false := by
    have hsome : c.offset?.isSome = true := offset?_isSome_iff.mpr h.offsetMinutes
    rw [← Option.not_isSome, hsome]
    rfl
  simp only [validate, hintervals, hspeed, hstep, hoffset, if_false, Mode.baseInterval]
  cases Period.checked (Period.ofMillis c.routeInterval) c.multiplier with
  | error e => rfl
  | ok routePeriod =>
      cases Period.checked (Period.ofMillis c.playbackInterval) c.multiplier with
      | error e => rfl
      | ok playbackPeriod => rfl

theorem validate_eq_other (h : c.atUnitSpeed.Usable) {mode : Mode} (hpos : 1 ≤ c.multiplier)
    (hle : c.multiplier ≤ mode.baseInterval c) :
    c.validate = (Period.checked (mode.other.baseInterval c) c.multiplier).map fun _ => () := by
  have hown := Period.checked_eq_ok_iff.mpr ⟨hpos, hle, rfl⟩
  rw [validate_eq_periods h]
  cases mode with
  | route =>
      rw [hown]
      rfl
  | playback =>
      rw [hown, Mode.other]
      cases Period.checked (Mode.route.baseInterval c) c.multiplier <;> rfl

end Config

namespace Simulation

variable {m m' : Simulation}

/-!
# What happens to the settings
-/

theorem setMultiplier_eq_ok_iff {multiplier : Nat} :
    (m.setMultiplier multiplier).1 = .ok () ↔
      1 ≤ multiplier ∧ multiplier ≤ m.session.scheduler.base := by
  have hchecked : (m.setMultiplier multiplier).1 = .ok () ↔
      exists period, Period.checked m.session.scheduler.base multiplier = .ok period := by
    cases h : Period.checked m.session.scheduler.base multiplier <;>
      simp [setMultiplier, Session.setMultiplier, Scheduler.setMultiplier, h, Except.map]
  simp only [hchecked, Period.checked_eq_ok_iff, exists_and_left, exists_eq, and_true]

theorem Hears.config {snapshots : List Snapshot} (h : m.Hears snapshots m') :
    m'.session.config = m.session.config := by
  rcases h.exists_observe with ⟨answers, observed, lines, hobserve⟩
  exact (Session.keeps_observe hobserve).config

theorem config_of_step (h : Step m m') :
    m'.session.config = m.session.config ∨ m.Respeeds m' := by
  rcases step_cases h with hmoves | ⟨stops, rfl⟩ | hrespeeds | rfl | ⟨snapshots, hears⟩
  · exact Or.inl hmoves.config
  · exact Or.inl rfl
  · exact Or.inr hrespeeds
  · exact Or.inl rfl
  · exact Or.inl hears.config

theorem Reachable.atUnitSpeed (h : m.Reachable) : m.session.config.atUnitSpeed.Usable := by
  induction h with
  | new h clock sink feed journal =>
      have hvalid := Session.exists_new_iff.mp ⟨_, h⟩
      rcases Session.new_eq_ok h with ⟨offset, -, rfl, -, -⟩
      exact (Config.validate_eq_ok_iff.mp hvalid).atUnitSpeed
  | step h hstep ih =>
      rcases config_of_step hstep with hsame | ⟨multiplier, -, -, hmoves⟩
      · rw [hsame]
        exact ih
      · rw [hmoves.config]
        exact ih

theorem Reachable.multiplier_le (h : m.Reachable) :
    m.session.config.multiplier ≤ m.session.mode.baseInterval m.session.config := by
  have hready := h.ready
  have hcoherent := h.coherent
  have hpos := hready.interval_pos
  rw [Scheduler.interval, Period.of, hcoherent.base, hcoherent.multiplier] at hpos
  exact Nat.le_of_not_lt fun hshort => Nat.ne_of_gt hpos (Nat.div_eq_of_lt hshort)

theorem Reachable.validate_eq (h : m.Reachable) :
    m.session.config.validate =
      (Period.checked (m.session.mode.other.baseInterval m.session.config)
        m.session.config.multiplier).map fun _ => () :=
  Config.validate_eq_other h.atUnitSpeed h.dependable.multiplier_pos h.multiplier_le

theorem Reachable.validate_eq_ok_iff (h : m.Reachable) :
    m.session.config.validate = .ok () ↔
      m.session.config.multiplier ≤ m.session.mode.other.baseInterval m.session.config := by
  have hpos := h.dependable.multiplier_pos
  rw [h.validate_eq]
  constructor
  · intro hvalid
    cases hperiod : Period.checked (m.session.mode.other.baseInterval m.session.config)
        m.session.config.multiplier with
    | ok period => exact (Period.checked_eq_ok_iff.mp hperiod).2.1
    | error e => simp [hperiod, Except.map] at hvalid
  · intro hle
    rw [Period.checked_eq_ok_iff.mpr ⟨hpos, hle, rfl⟩]
    rfl

theorem Reachable.validate_eq_error_iff (h : m.Reachable) {e : Error} :
    m.session.config.validate = .error e ↔
      m.session.mode.other.baseInterval m.session.config < m.session.config.multiplier ∧
        e = .input (.noPeriod m.session.config.multiplier
          (m.session.mode.other.baseInterval m.session.config)) := by
  have hpos : 0 < m.session.config.multiplier := h.dependable.multiplier_pos
  have hchecked : m.session.config.validate = .error e ↔
      Period.checked (m.session.mode.other.baseInterval m.session.config)
        m.session.config.multiplier = .error e := by
    rw [h.validate_eq]
    cases Period.checked (m.session.mode.other.baseInterval m.session.config)
      m.session.config.multiplier <;> simp [Except.map]
  simp [hchecked, Period.checked_eq_error_iff, hpos, Nat.ne_of_gt hpos]

theorem mode_of_respeeds (h : m.Respeeds m') : m'.session.mode = m.session.mode := by
  rcases h with ⟨multiplier, -, rfl, -⟩
  exact congrArg Source.mode (congrArg Course.source (course_setMultiplier m multiplier))

/-- In every state, the settings are valid exactly if the interval of the other mode leaves time for
the multiplier, and otherwise that is the error; a session whose own mode has the shorter interval
always has valid settings. The settings become invalid in one way only: by a change of speed that
is granted because the interval of the session's own mode is long enough for it. -/
theorem config_valid_iff (hm : m.Reachable) :
    (m.session.config.validate = .ok () ↔
      m.session.config.multiplier ≤ m.session.mode.other.baseInterval m.session.config) ∧
    (∀ e, m.session.config.validate = .error e ↔
      m.session.mode.other.baseInterval m.session.config < m.session.config.multiplier ∧
        e = .input (.noPeriod m.session.config.multiplier
          (m.session.mode.other.baseInterval m.session.config))) ∧
    (m.session.mode.baseInterval m.session.config ≤
        m.session.mode.other.baseInterval m.session.config →
      m.session.config.validate = .ok ()) ∧
    ∀ m', Step m m' → m.session.config.validate = .ok () → m'.session.config.validate ≠ .ok () →
      exists multiplier, m' = (m.setMultiplier multiplier).2 ∧
        multiplier ≤ m.session.mode.baseInterval m.session.config ∧
          m.session.mode.other.baseInterval m.session.config < multiplier := by
  refine ⟨hm.validate_eq_ok_iff, fun _ => hm.validate_eq_error_iff, ?_, ?_⟩
  · intro hshorter
    exact hm.validate_eq_ok_iff.mpr (Nat.le_trans hm.multiplier_le hshorter)
  · intro m' hstep hvalid hinvalid
    have hm' : m'.Reachable := .step hm hstep
    rcases config_of_step hstep with hsame | hrespeeds
    · exact absurd (hsame ▸ hvalid) hinvalid
    · have hmode := mode_of_respeeds hrespeeds
      rcases hrespeeds with ⟨multiplier, hgranted, hm'eq, hmoves⟩
      have hbase := (setMultiplier_eq_ok_iff.mp hgranted).2
      rw [hm.coherent.base] at hbase
      refine ⟨multiplier, hm'eq, hbase, Nat.lt_of_not_le fun hle => hinvalid ?_⟩
      rw [hm'.validate_eq_ok_iff, hmode, hmoves.config, Mode.baseInterval_multiplier]
      exact hle

theorem config_valid_iff_fourfold :
    ((standard (.playback .lone) .silent).setMultiplier 4).2.Reachable ∧
      ((standard (.playback .lone) .silent).setMultiplier 4).2.session.config.validate =
        .ok () := by
  have hm : ((standard (.playback .lone) .silent).setMultiplier 4).2.Reachable :=
    (reachable_standard _ _).step (.setMultiplier _ 4)
  exact ⟨hm, (config_valid_iff hm).1.mpr (by decide +kernel)⟩

/-- A session over a recording is granted a speed for which the interval of a route is too short. No
session can be had with the settings that it is left with. -/
theorem granted_speed_leaves_invalid :
    (standard (.playback .lone) .silent).Reachable ∧
      ((standard (.playback .lone) .silent).setMultiplier 200000000).1 = .ok () ∧
      ((standard (.playback .lone) .silent).setMultiplier 200000000).2.session.config.validate =
        .error (.input (.noPeriod 200000000 100000000)) ∧
      ∀ source, Session.new
          ((standard (.playback .lone) .silent).setMultiplier 200000000).2.session.config source =
        .error (.input (.noPeriod 200000000 100000000)) := by
  have hm := reachable_standard (.playback .lone) .silent
  have hm' : ((standard (.playback .lone) .silent).setMultiplier 200000000).2.Reachable :=
    hm.step (.setMultiplier _ 200000000)
  have hinvalid := hm'.validate_eq_error_iff.mpr ⟨by decide +kernel, rfl⟩
  exact ⟨hm, setMultiplier_eq_ok_iff.mpr (by decide +kernel), hinvalid,
    Session.new_of_invalid hinvalid⟩

end Simulation
end TransitSim
