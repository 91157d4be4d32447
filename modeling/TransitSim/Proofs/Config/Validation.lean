import TransitSim.Config.Basic
import TransitSim.Proofs.Decimal.Sums

/-!
# Which settings can be used

The checks of a configuration are made one after the other. Taken together they say no more than
that each setting is in its range: the multiplier has to leave a nanosecond of the shorter of the
two intervals, speed and time step have to be numbers from zero on, and the wall clock has to be
less than a day ahead or behind.
-/

namespace TransitSim

/-!
# Periods
-/

theorem Period.checked_eq_error_iff {base multiplier : Nat} {e : Error} :
    checked base multiplier = .error e ↔
      (multiplier = 0 ∧ e = .input .zeroMultiplier) ∨
        (0 < multiplier ∧ base < multiplier ∧ e = .input (.noPeriod multiplier base)) := by
  by_cases hzero : multiplier = 0
  · simp [checked, hzero, eq_comm]
  · have hpos : 0 < multiplier := Nat.pos_of_ne_zero hzero
    by_cases hshort : base < multiplier
    · simp [checked, of, hzero, hpos, hshort, Nat.div_eq_of_lt hshort, eq_comm]
    · have hlong : base / multiplier ≠ 0 :=
        Nat.ne_of_gt (Nat.div_pos (Nat.le_of_not_lt hshort) hpos)
      simp [checked, of, hzero, hshort, hlong]

theorem Period.checked_eq_ok_iff {base multiplier period : Nat} :
    checked base multiplier = .ok period ↔
      1 ≤ multiplier ∧ multiplier ≤ base ∧ period = of base multiplier := by
  by_cases hzero : multiplier = 0
  · simp [checked, hzero]
  · have hpos : 1 ≤ multiplier := Nat.pos_of_ne_zero hzero
    by_cases hshort : base < multiplier
    · simp [checked, of, hzero, Nat.div_eq_of_lt hshort, Nat.not_le.mpr hshort]
    · have hle : multiplier ≤ base := Nat.le_of_not_lt hshort
      have hsome : base / multiplier ≠ 0 := Nat.ne_of_gt (Nat.div_pos hle hpos)
      simp [checked, of, hzero, hpos, hle, hsome, eq_comm]

namespace Config

theorem isUsable_iff {x : Float} : isUsable x = true ↔ x.isFinite = true ∧ 0 ≤ x := by
  simp only [isUsable, Bool.and_eq_true, Bool.not_eq_true', decide_eq_false_iff_not]
  exact and_congr_right Binary64.not_lt_zero_iff

/-!
# The conditions
-/

/-- The settings with which a simulation can be set up. -/
structure Usable (c : Config) : Prop where
  routeInterval : 1 ≤ c.routeInterval
  playbackInterval : 1 ≤ c.playbackInterval
  multiplier_pos : 1 ≤ c.multiplier
  multiplier_le : c.multiplier ≤ 1000000 * min c.routeInterval c.playbackInterval
  routeSpeed : c.routeSpeed.isFinite = true ∧ 0 ≤ c.routeSpeed
  routeTimeStep : c.routeTimeStep.isFinite = true ∧ 0 ≤ c.routeTimeStep
  offsetMinutes : c.offsetMinutes.natAbs < 1440

theorem offset?_isSome_iff {c : Config} :
    c.offset?.isSome = true ↔ c.offsetMinutes.natAbs < 1440 := by
  simp only [offset?, Calendar.Offset.ofMinutes?, Calendar.Offset.ofSeconds?]
  split
  · simp only [Option.isSome_some, true_iff]
    omega
  · simp only [Option.isSome_none, Bool.false_eq_true, false_iff]
    omega

theorem usable_of_validate {c : Config} (h : c.validate = .ok ()) : c.Usable := by
  by_cases hintervals : c.routeInterval = 0 ∨ c.playbackInterval = 0
  · simp [validate, hintervals, bind, Except.bind, throw, throwThe, MonadExceptOf.throw] at h
  cases hroute : Period.checked (Period.ofMillis c.routeInterval) c.multiplier with
  | error e => simp [validate, hintervals, hroute, bind, Except.bind] at h
  | ok routePeriod =>
  cases hplayback : Period.checked (Period.ofMillis c.playbackInterval) c.multiplier with
  | error e => simp [validate, hintervals, hroute, hplayback, bind, Except.bind] at h
  | ok playbackPeriod =>
  rcases Period.checked_eq_ok_iff.mp hroute with ⟨hpos, hrouteLe, -⟩
  rcases Period.checked_eq_ok_iff.mp hplayback with ⟨-, hplaybackLe, -⟩
  simp only [Period.ofMillis, Duration.millisecond] at hrouteLe hplaybackLe
  simp only [validate, hintervals, hroute, hplayback, if_false, bind, Except.bind, pure,
    Except.pure] at h
  cases hspeed : isUsable c.routeSpeed with
  | false => simp [hspeed, throw, throwThe, MonadExceptOf.throw] at h
  | true =>
  cases hstep : isUsable c.routeTimeStep with
  | false => simp [hspeed, hstep, throw, throwThe, MonadExceptOf.throw] at h
  | true =>
  cases hoffset : c.offset?.isNone with
  | true => simp [hspeed, hstep, hoffset, throw, throwThe, MonadExceptOf.throw] at h
  | false =>
      constructor
      case routeInterval => omega
      case playbackInterval => omega
      case multiplier_pos => exact hpos
      case multiplier_le => omega
      case routeSpeed => exact isUsable_iff.mp hspeed
      case routeTimeStep => exact isUsable_iff.mp hstep
      case offsetMinutes =>
        rw [← offset?_isSome_iff, ← Option.not_isNone, hoffset]
        rfl

theorem validate_of_usable {c : Config} (h : c.Usable) : c.validate = .ok () := by
  have hle := h.multiplier_le
  have hperiods : (exists period,
        Period.checked (Period.ofMillis c.routeInterval) c.multiplier = .ok period) ∧
      exists period,
        Period.checked (Period.ofMillis c.playbackInterval) c.multiplier = .ok period := by
    simp only [Period.checked_eq_ok_iff, Period.ofMillis, Duration.millisecond]
    exact ⟨⟨_, h.multiplier_pos, by omega, rfl⟩, ⟨_, h.multiplier_pos, by omega, rfl⟩⟩
  rcases hperiods with ⟨⟨routePeriod, hroute⟩, ⟨playbackPeriod, hplayback⟩⟩
  have hintervals : ¬(c.routeInterval = 0 ∨ c.playbackInterval = 0) := by
    have := h.routeInterval
    have := h.playbackInterval
    omega
  have hoffset : c.offset?.isNone = false := by
    rw [← Option.not_isSome, offset?_isSome_iff.mpr h.offsetMinutes]
    rfl
  simp [validate, hintervals, hroute, hplayback, isUsable_iff.mpr h.routeSpeed,
    isUsable_iff.mpr h.routeTimeStep, hoffset, bind, Except.bind, pure, Except.pure]

theorem validate_eq_ok_iff {c : Config} : c.validate = .ok () ↔ c.Usable :=
  ⟨usable_of_validate, validate_of_usable⟩

theorem validate_standard : standard.validate = .ok () := by
  have hvalid : standard.validate.toBool = true := by decide +kernel
  cases hresult : standard.validate with
  | ok => rfl
  | error e => simp [hresult, Except.toBool] at hvalid

end Config
end TransitSim
