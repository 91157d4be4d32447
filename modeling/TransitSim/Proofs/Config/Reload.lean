import TransitSim.Config.Record
import TransitSim.Proofs.Config.Validation
import TransitSim.Proofs.Json.Rereading
import TransitSim.Proofs.Text.Utf8

/-!
# Loading a configuration that was saved

A configuration that can be used is loaded from the file written for it, and every setting comes
back but for speed and time step. Each of these is read from its shortest digits by an operation
that rounds, and may come back as a neighbour.
-/

namespace TransitSim

theorem Binary64.beq_self {x : Float} (h : x.isFinite = true) : (x == x) = true := by
  rw [Float.beq_self_iff]
  rintro rfl
  exact absurd h (by decide +kernel)

namespace Config

open Json

def reload (c : Config) : Except Error Config :=
  ofFile (some (Utf8.encode c.fileText))

/-- Whether the whole numbers of a configuration fit the words in which they are held. -/
structure Fits (c : Config) : Prop where
  routeInterval : c.routeInterval < wordLimit
  playbackInterval : c.playbackInterval < wordLimit
  multiplier : c.multiplier < Nat.pow 2 32

/-!
# The record
-/

theorem ofRaw?_wrap (w : Wrap) : Wrap.ofRaw? (raw w.toJson) = some w := by
  rw [Wrap.toJson, Wrap.ofRaw?, word?_raw]
  cases w <;> decide

theorem slots?_toJson (c : Config) :
    (raw c.toJson).slots? settingNames =
      some [.given (raw (.string c.vehicleId)), .given (raw (.string c.routeCode)),
        .given (raw (.string c.driverId)), .given (raw (.string c.merchantId)),
        .given (raw (.ofNat c.routeInterval)), .given (raw (.ofNat c.playbackInterval)),
        .given (raw (.ofFloat c.routeSpeed)), .given (raw (.ofFloat c.routeTimeStep)),
        .given (raw (.ofNat c.multiplier)), .given (raw c.wrap.toJson),
        .given (raw (.ofInt c.offsetMinutes))] :=
  slots?_raw (show settingNames.Nodup by decide)

theorem ofRaw?_raw {c : Config} (hfits : c.Fits) (hoffset : c.offsetMinutes.natAbs < 1440) :
    standard.ofRaw? (raw c.toJson) =
      (reread? c.routeSpeed).bind fun speed => (reread? c.routeTimeStep).map fun timeStep =>
        { c with routeSpeed := speed, routeTimeStep := timeStep } := by
  have hhalf : Nat.pow 2 31 = 2147483648 := rfl
  have hroute := natBelow?_raw hfits.routeInterval (Nat.le_refl wordLimit)
  have hplayback := natBelow?_raw hfits.playbackInterval (Nat.le_refl wordLimit)
  have hmultiplier := natBelow?_raw hfits.multiplier (by decide)
  have hminutes : (raw (.ofInt c.offsetMinutes)).int? (-Nat.pow 2 31) (Nat.pow 2 31 - 1) =
      some c.offsetMinutes :=
    int?_raw (by omega) (by omega) (by omega)
  rw [ofRaw?, slots?_toJson]
  simp only [bind, Option.bind, Slot.orElse, text?_raw, hroute, hplayback, hmultiplier, hminutes,
    float?_raw, ofRaw?_wrap]
  cases reread? c.routeSpeed with
  | none => rfl
  | some speed => cases reread? c.routeTimeStep <;> rfl

/-!
# The file
-/

/-- A configuration that can be used is loaded again, with its two doubles as they are read
back. -/
theorem exists_reload {c : Config} (h : c.Usable) (hfits : c.Fits) :
    exists speed timeStep, reread? c.routeSpeed = some speed ∧
      reread? c.routeTimeStep = some timeStep ∧
        c.reload = .ok { c with routeSpeed := speed, routeTimeStep := timeStep } := by
  rcases exists_reread? h.routeSpeed.1 h.routeSpeed.2 with ⟨speed, hspeed, husable⟩
  rcases exists_reread? h.routeTimeStep.1 h.routeTimeStep.2 with ⟨timeStep, htimeStep, husable'⟩
  have hvalid : Config.validate { c with routeSpeed := speed, routeTimeStep := timeStep } =
      .ok () :=
    validate_eq_ok_iff.mpr { h with routeSpeed := husable, routeTimeStep := husable' }
  refine ⟨speed, timeStep, hspeed, htimeStep, ?_⟩
  rw [reload, ofFile]
  simp only [Utf8.text?_encode, ofText, fileText, ofText?_indentedText, ofRecord, Option.bind_some,
    ofRaw?_raw hfits h.offsetMinutes, hspeed, htimeStep, Option.map_some, hvalid]
  rfl

theorem same_iff (c : Config) (speed timeStep : Float) :
    c.same { c with routeSpeed := speed, routeTimeStep := timeStep } = true ↔
      (c.routeSpeed == speed) = true ∧ (c.routeTimeStep == timeStep) = true := by
  simp only [same, beq_self_eq_true, Bool.true_and, Bool.and_true, Bool.and_eq_true]

/-- What comes back from the file written for a configuration that can be used. -/
theorem reload_spec {c : Config} (h : c.validate = .ok ()) (hfits : c.Fits) :
    exists d, c.reload = .ok d ∧
      reread? c.routeSpeed = some d.routeSpeed ∧ reread? c.routeTimeStep = some d.routeTimeStep ∧
        d = { c with routeSpeed := d.routeSpeed, routeTimeStep := d.routeTimeStep } ∧
          (c.same d = true ↔
            (c.routeSpeed == d.routeSpeed) = true ∧ (c.routeTimeStep == d.routeTimeStep) = true) ∧
            (HasFewDigits c.routeSpeed → HasFewDigits c.routeTimeStep → c.same d = true) := by
  have husable := validate_eq_ok_iff.mp h
  rcases exists_reload husable hfits with ⟨speed, timeStep, hspeed, htimeStep, hreload⟩
  refine ⟨_, hreload, hspeed, htimeStep, rfl, same_iff c speed timeStep, ?_⟩
  intro hfew hfew'
  rw [same_iff]
  rw [reread?_of_hasFewDigits hfew] at hspeed
  rw [reread?_of_hasFewDigits hfew'] at htimeStep
  rw [← Option.some.inj hspeed, ← Option.some.inj htimeStep]
  exact ⟨Binary64.beq_self husable.routeSpeed.1, Binary64.beq_self husable.routeTimeStep.1⟩

theorem fits_standard : standard.Fits := ⟨by decide, by decide, by decide⟩

theorem reload_spec_standard :
    standard.validate = .ok () ∧ standard.Fits ∧ HasFewDigits standard.routeSpeed ∧
      HasFewDigits standard.routeTimeStep ∧
        exists d, standard.reload = .ok d ∧ standard.same d = true := by
  have hspeed : HasFewDigits standard.routeSpeed := ⟨120, 0, by decide, by decide, rfl⟩
  have htimeStep : HasFewDigits standard.routeTimeStep := ⟨1, 1, by decide, by decide, rfl⟩
  rcases reload_spec validate_standard fits_standard with ⟨d, hreload, -, -, -, -, hsame⟩
  exact ⟨validate_standard, fits_standard, hspeed, htimeStep, d, hreload, hsame hspeed htimeStep⟩

/-- A speed of sixteen digits, `90.36162460566219` kilometres an hour. -/
def uneven : Config :=
  { standard with routeSpeed := Binary64.ofDecimal false 9036162460566219 (-14) }

/-- The speed comes back as the double above it. -/
theorem reload_uneven :
    uneven.validate = .ok () ∧ uneven.Fits ∧
      exists d, uneven.reload = .ok d ∧ uneven.same d = false := by
  have hstandard := validate_eq_ok_iff.mp validate_standard
  have hspeed : uneven.routeSpeed.isFinite = true ∧ 0 ≤ uneven.routeSpeed := by decide +kernel
  have husable : uneven.Usable := { hstandard with routeSpeed := hspeed }
  have hfits : uneven.Fits := { fits_standard with }
  have hlost : (reread? uneven.routeSpeed).all (fun y => !(uneven.routeSpeed == y)) = true := by
    decide +kernel
  rcases exists_reload husable hfits with ⟨speed, timeStep, hread, -, hreload⟩
  refine ⟨validate_eq_ok_iff.mpr husable, hfits, _, hreload, ?_⟩
  rw [hread, Option.all_some, Bool.not_eq_true'] at hlost
  rw [Bool.eq_false_iff]
  intro hsame
  rw [same_iff, hlost] at hsame
  exact Bool.false_ne_true hsame.1

end Config
end TransitSim
