import Mathlib
import TransitSim.Decimal.Binary64

/-!
# Sums of doubles

Sums are rounded, so that little of what holds of exact numbers holds of them. What remains does not
depend on how they are rounded: a sum of numbers that are not below zero is not below zero, adding
a zero changes no comparison, and nothing is beyond an infinite sum.
-/

namespace TransitSim
namespace Binary64

open Float.Model Float.Model.UnpackedFloat

inductive IsNegative : UnpackedFloat → Prop where
  | infinity : IsNegative (.infinity .negative)
  | finite (m : Nat) (e : Int) (hm : 0 < m) : IsNegative (.finite .negative m e hm)

theorem unpack_add (x y : Float) :
    (x + y).toModel.unpack = unpack .binary64 (pack .binary64 (UnpackedFloat.add .binary64
      x.toModel.unpack y.toModel.unpack)) :=
  rfl

theorem lt_iff {x y : Float} :
    x < y ↔ x.toModel.unpack.compare y.toModel.unpack = some .lt := by
  show decide ((x.toModel.unpack.compare y.toModel.unpack == some .lt) = true) = true ↔ _
  rw [decide_eq_true_eq, beq_iff_eq]

theorem lt_zero_iff {x : Float} : x < 0 ↔ IsNegative x.toModel.unpack := by
  have hzero : (0 : Float).toModel.unpack = .zero .positive := rfl
  rw [lt_iff, hzero]
  constructor
  · intro h
    cases hx : x.toModel.unpack with
    | infinity s =>
        rw [hx] at h
        cases s with
        | positive => cases h
        | negative => exact .infinity
    | notANumber =>
        rw [hx] at h
        cases h
    | zero s =>
        rw [hx] at h
        cases h
    | finite s m e hm =>
        rw [hx] at h
        cases s with
        | positive => cases h
        | negative => exact .finite m e hm
  · intro h
    generalize x.toModel.unpack = u at h
    cases h <;> rfl

theorem zero_le_iff {x : Float} :
    0 ≤ x ↔ ((UnpackedFloat.zero .positive).compare x.toModel.unpack).any (·.isLE) = true := by
  have hzero : (0 : Float).toModel.unpack = .zero .positive := rfl
  show decide (((0 : Float).toModel.unpack.compare x.toModel.unpack).any (·.isLE) = true) = true ↔ _
  rw [hzero, decide_eq_true_eq]

theorem not_lt_zero_of_le {x : Float} (h : 0 ≤ x) : ¬x < 0 := by
  rw [lt_zero_iff]
  rw [zero_le_iff] at h
  intro hnegative
  generalize x.toModel.unpack = u at h hnegative
  cases hnegative <;> cases h

theorem not_lt_zero_iff {x : Float} (h : x.isFinite = true) : ¬x < 0 ↔ 0 ≤ x := by
  constructor
  · have hfinite : x.toModel.unpack.isFinite = true := h
    rw [lt_zero_iff, zero_le_iff]
    intro hnot
    cases hx : x.toModel.unpack with
    | infinity s =>
        rw [hx] at hfinite
        cases hfinite
    | notANumber =>
        rw [hx] at hfinite
        cases hfinite
    | zero s => rfl
    | finite s m e hm =>
        rw [hx] at hnot
        cases s with
        | positive => rfl
        | negative => exact absurd (.finite m e hm) hnot
  · exact not_lt_zero_of_le

/-!
# Signs
-/

theorem IsNegative.unpackSign {b : BitVec Format.binary64.numBits}
    (h : IsNegative (unpack .binary64 b)) : Sign.ofBitVec (unpackSign b) = .negative := by
  rw [UnpackedFloat.unpack] at h
  dsimp only at h
  split at h
  case isTrue =>
    split at h
    case isTrue =>
      generalize Sign.ofBitVec (UnpackedFloat.unpackSign b) = s at h ⊢
      cases h
      rfl
    case isFalse => cases h
  case isFalse =>
    split at h
    case isTrue =>
      split at h
      case isTrue => cases h
      case isFalse =>
        generalize Sign.ofBitVec (UnpackedFloat.unpackSign b) = s at h ⊢
        cases h
        rfl
    case isFalse =>
      generalize Sign.ofBitVec (UnpackedFloat.unpackSign b) = s at h ⊢
      cases h
      rfl

theorem not_isNegative_packComponents (exponent : BitVec 11) (mantissa : BitVec 52) :
    ¬IsNegative
      (unpack .binary64 (packComponents Format.binary64 .positive exponent mantissa)) := by
  intro h
  have hsign := h.unpackSign
  rw [unpackSign_packComponents, Sign.ofBitVec_toBitVec] at hsign
  cases hsign

theorem isNegative_of_unpack_pack {u : UnpackedFloat}
    (h : IsNegative (unpack .binary64 (pack .binary64 u))) : IsNegative u := by
  cases u with
  | infinity s =>
      cases s with
      | positive => exact absurd h (not_isNegative_packComponents _ _)
      | negative => exact .infinity
  | notANumber =>
      rw [UnpackedFloat.pack, unpack_packedNaN] at h
      cases h
  | zero s =>
      rw [UnpackedFloat.pack, unpack_packedZero] at h
      cases h
  | finite s m e hm =>
      cases s with
      | positive =>
          rw [UnpackedFloat.pack] at h
          dsimp only at h
          split at h
          · exact absurd h (not_isNegative_packComponents _ _)
          · split at h <;> exact absurd h (not_isNegative_packComponents _ _)
      | negative => exact .finite m e hm

theorem not_isNegative_round (m : Nat) (e : Int) :
    ¬IsNegative (UnpackedFloat.round .binary64 .positive m e) := by
  intro h
  rw [UnpackedFloat.round] at h
  dsimp only at h
  rw [roundWithAccuracy] at h
  dsimp only at h
  split at h <;> cases h

theorem not_isNegative_normalize {m : Int} (hm : 0 ≤ m) (e : Int) :
    ¬IsNegative (normalize .binary64 m e .positive) := by
  intro h
  rw [UnpackedFloat.normalize.eq_def] at h
  split at h
  case h_1 hless => exact absurd (Int.compare_eq_lt.mp hless) (Int.not_lt.mpr hm)
  case h_2 => cases h
  case h_3 => exact not_isNegative_round _ _ h

/-!
# Sums
-/

theorem not_isNegative_add {u v : UnpackedFloat} (hu : ¬IsNegative u) (hv : ¬IsNegative v) :
    ¬IsNegative (UnpackedFloat.add .binary64 u v) := by
  intro h
  rw [UnpackedFloat.add.eq_def] at h
  split at h
  case h_1 => cases h
  case h_2 => cases h
  case h_3 s t =>
    split at h
    case isTrue => exact hu h
    case isFalse => cases h
  case h_4 => exact hu h
  case h_5 => exact hv h
  case h_6 s t => split at h <;> cases h
  case h_7 => exact hv h
  case h_8 => exact hu h
  case h_9 s m e hm t n f hn =>
    cases s with
    | negative => exact hu (.finite m e hm)
    | positive =>
        cases t with
        | negative => exact hv (.finite n f hn)
        | positive =>
            dsimp only at h
            exact not_isNegative_normalize (Int.add_nonneg (Int.natCast_nonneg _)
              (Int.natCast_nonneg _)) _ h

theorem not_add_lt_zero {x y : Float} (hx : ¬x < 0) (hy : ¬y < 0) : ¬x + y < 0 := by
  rw [lt_zero_iff] at hx hy ⊢
  rw [unpack_add]
  intro h
  exact not_isNegative_add hx hy (isNegative_of_unpack_pack h)

theorem exists_zero {x : Float} (hle : 0 ≤ x) (hlt : ¬0 < x) :
    exists s, x.toModel.unpack = .zero s := by
  have hzero : (0 : Float).toModel.unpack = .zero .positive := rfl
  rw [zero_le_iff] at hle
  rw [lt_iff, hzero] at hlt
  cases hx : x.toModel.unpack with
  | infinity s =>
      rw [hx] at hle hlt
      cases s with
      | positive => exact absurd rfl hlt
      | negative => cases hle
  | notANumber =>
      rw [hx] at hle
      cases hle
  | zero s => exact ⟨s, rfl⟩
  | finite s m e hm =>
      rw [hx] at hle hlt
      cases s with
      | positive => exact absurd rfl hlt
      | negative => cases hle

theorem lt_add_zero_iff {x y zero : Float} (hle : 0 ≤ zero) (hlt : ¬0 < zero) :
    x < y + zero ↔ x < y := by
  rcases exists_zero hle hlt with ⟨s, hs⟩
  rw [lt_iff, lt_iff, unpack_add, hs]
  by_cases hy : exists t, y.toModel.unpack = .zero t
  · rcases hy with ⟨t, ht⟩
    have hsum : exists r, UnpackedFloat.add .binary64 (.zero t) (.zero s) = .zero r := by
      cases s <;> cases t <;> exact ⟨_, rfl⟩
    rcases hsum with ⟨r, hr⟩
    rw [ht, hr, UnpackedFloat.pack, unpack_packedZero]
    cases x.toModel.unpack with
    | infinity q => cases q <;> rfl
    | notANumber => rfl
    | zero q => rfl
    | finite q m e hm => cases q <;> rfl
  · have hsum : UnpackedFloat.add .binary64 y.toModel.unpack (.zero s) = y.toModel.unpack := by
      cases hu : y.toModel.unpack with
      | zero t => exact absurd ⟨t, hu⟩ hy
      | infinity t => rfl
      | notANumber => rfl
      | finite t m e hm => rfl
    have hpacked : pack .binary64 y.toModel.unpack = y.toModel.toBits.toBitVec :=
      pack_unpack_of_valid y.toModel.valid
    rw [hsum, hpacked]
    rfl

def greatest : Float :=
  Float.ofBits 0x7fefffffffffffff

theorem not_greatest_add_lt (x : Float) : ¬greatest + greatest < x := by
  have hsum : (greatest + greatest).toModel.unpack = .infinity .positive := by rfl
  rw [lt_iff, hsum]
  cases x.toModel.unpack with
  | infinity s => cases s <;> decide
  | _ => intro h; cases h

end Binary64
end TransitSim
