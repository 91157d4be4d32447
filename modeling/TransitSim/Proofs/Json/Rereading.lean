import TransitSim.Proofs.Json.Doubles

/-!
# Every finite double can be read back

The product or the quotient from which a double is read back stays among the finite numbers. Near
the end of the doubles this is a matter of figures: for each of the greatest powers of ten, the most
that its factor can be is compared with that end.
-/

namespace TransitSim
namespace Json

open Binary64 Decimal Shortest Float.Model.UnpackedFloat

/-!
# Small numbers
-/

def halfUnit : Nat := 1 <<< 970

theorem cast_halfUnit : (halfUnit : ℚ) = 2 ^ (970 : Int) := by
  have hcast : ∀ n : Nat, ((1 <<< n : Nat) : ℚ) = 2 ^ (n : Int) := fun n => by
    rw [Nat.one_shiftLeft, zpow_natCast, Nat.cast_pow, Nat.cast_ofNat]
  exact hcast 970

theorem double_halfUnit : (2 : ℚ) ^ (971 : Int) = 2 * halfUnit := by
  rw [cast_halfUnit, mul_comm, ← zpow_add_one₀ (by norm_num)]
  rfl

theorem overflow_eq : overflow = (((2 ^ 54 - 1) * halfUnit : Nat) : ℚ) := by
  rw [overflow, double_halfUnit]
  push_cast
  linarith

theorem exists_power {k : Nat} (hpos : 0 < k) (hk : k ≤ greatestPower) :
    exists m e, IsDouble m e ∧ RoundsTo ((10 ^ k : Nat) : ℚ) m e ∧ (1 : ℚ) ≤ m * 2 ^ e ∧
      powerOfTen k = double .positive m e := by
  have hend : ((10 ^ k : Nat) : ℚ) < overflow := by
    have hle : 10 ^ k ≤ 10 ^ greatestPower := Nat.pow_le_pow_right (by decide) hk
    have hlt : 10 ^ greatestPower < (2 ^ 54 - 1) * halfUnit := by decide +kernel
    rw [overflow_eq]
    exact_mod_cast lt_of_le_of_lt hle hlt
  have hten : 10 ≤ 10 ^ k := Nat.le_self_pow (Nat.ne_of_gt hpos) 10
  rcases exists_nearestDouble (Nat.pow_pos (by decide)) hend with ⟨m, e, hd, hrounds, heq⟩
  have hten' : (10 : ℚ) ≤ (10 ^ k : Nat) := by exact_mod_cast hten
  have hsmall : (2 : ℚ) ^ (-100 : Int) ≤ (10 ^ k : Nat) :=
    le_trans (le_trans (zpow_le_one_of_nonpos₀ (by norm_num) (by decide)) (by norm_num)) hten'
  rcases close_of_roundsTo hd hrounds hsmall with ⟨-, -, hclose⟩
  exact ⟨m, e, hd, hrounds, by linarith, heq⟩

theorem exists_scale?_of_neg {x : Float} (hx : IsFromZero x) {exponent : Int} (h : exponent < 0) :
    exists y, scale? x exponent = some y ∧ IsFromZero y := by
  have hgreatest : greatestPower = 308 := rfl
  have hone : 0 < exponent.natAbs := by omega
  rw [scale?, if_neg (by omega)]
  split
  case isTrue hk =>
    rcases exists_power hone hk with ⟨m, e, hd, -, hge, heq⟩
    rw [heq]
    exact ⟨_, rfl, hx.div hd hge⟩
  case isFalse hk =>
    split
    case isTrue hk' =>
      rcases exists_power (by decide) (Nat.le_refl greatestPower) with ⟨m, e, hd, -, hge, heq⟩
      rcases exists_power (k := exponent.natAbs - greatestPower) (by omega) (by omega) with
        ⟨m', e', hd', -, hge', heq'⟩
      rw [heq, heq']
      exact ⟨_, rfl, (hx.div hd hge).div hd' hge'⟩
    case isFalse => exact ⟨0, rfl, Or.inl rfl⟩

/-!
# Great numbers
-/

def mostShown : Nat := (2 ^ 54 - 3) * halfUnit

def abovePower (k : Nat) : Nat × Nat :=
  (Nat.pow 10 k / Nat.pow 2 ((Nat.pow 10 k).log2 - 52) + 1, (Nat.pow 10 k).log2 - 52)

def mostDigits (k : Nat) : Nat × Nat :=
  if k = 291 then (Nat.pow 5 17, 17)
  else if k = 292 then (8988465674311578, 1)
  else (mostShown / Nat.pow 10 k, 0)

theorem figures : ∀ i < 18,
    (0 < (mostDigits (291 + i)).1 ∧ (mostDigits (291 + i)).1 < 2 ^ 53 ∧
        (mostDigits (291 + i)).2 ≤ 900) ∧
      (2 ^ 52 ≤ (abovePower (291 + i)).1 ∧ (abovePower (291 + i)).1 < 2 ^ 53 ∧
        (abovePower (291 + i)).2 ≤ 971) ∧
      (10 ^ 17 ≤ (mostDigits (291 + i)).1 * 2 ^ (mostDigits (291 + i)).2 ∨
        mostShown < ((mostDigits (291 + i)).1 * 2 ^ (mostDigits (291 + i)).2 + 1) *
          10 ^ (291 + i)) ∧
      10 ^ (291 + i) ≤ (abovePower (291 + i)).1 * 2 ^ (abovePower (291 + i)).2 ∧
      (mostDigits (291 + i)).1 * 2 ^ (mostDigits (291 + i)).2 *
          ((abovePower (291 + i)).1 * 2 ^ (abovePower (291 + i)).2) < (2 ^ 54 - 1) * halfUnit := by
  decide +kernel

theorem mul_lt_overflow {a b : Nat} {x y : ℚ} (hx : x ≤ a) (hy : y ≤ b) (hpos : 0 ≤ y)
    (h : a * b < (2 ^ 54 - 1) * halfUnit) : x * y < overflow := by
  have hproduct : ((a * b : Nat) : ℚ) < overflow := by
    rw [overflow_eq]
    exact Nat.cast_lt.mpr h
  rw [Nat.cast_mul] at hproduct
  exact lt_of_le_of_lt (mul_le_mul hx hy hpos (Nat.cast_nonneg a)) hproduct

theorem product_lt_overflow {c k m n : Nat} {e f : Int} (hc : c ≤ 10 ^ 17)
    (hmost : c * 10 ^ k ≤ mostShown) (hk : k ≤ 308) (hm : IsDouble m e) (hn : IsDouble n f)
    (hdigits : RoundsTo c m e) (hpower : RoundsTo ((10 ^ k : Nat) : ℚ) n f) :
    ((m : ℚ) * 2 ^ e) * (n * 2 ^ f) < overflow := by
  obtain ⟨i, hi, hki, hsmall⟩ : exists i, i < 18 ∧ k ≤ 291 + i ∧ (k = 291 + i ∨ i = 0) :=
    ⟨k - 291, by omega, by omega, by omega⟩
  rcases figures i hi with ⟨⟨hpos, hfew, hshift⟩, ⟨hnormal, hmantissa, hexponent⟩, hbound, habove,
    hbelow⟩
  have hle : c ≤ (mostDigits (291 + i)).1 * 2 ^ (mostDigits (291 + i)).2 := by
    rcases hsmall with rfl | rfl
    · rcases hbound with hseventeen | hgreat
      · exact le_trans hc hseventeen
      · have hlt := lt_of_le_of_lt hmost hgreat
        exact Nat.le_of_lt_succ (Nat.lt_of_mul_lt_mul_right hlt)
    · exact hc
  have hten : 10 ^ k ≤ (abovePower (291 + i)).1 * 2 ^ (abovePower (291 + i)).2 :=
    le_trans (Nat.pow_le_pow_right (by decide) hki) habove
  rcases exists_exact hpos hfew hshift with ⟨a, g, ha, hvalue, -⟩
  have hleast : leastExponent = -1074 := rfl
  have hb : IsDouble (abovePower (291 + i)).1 ((abovePower (291 + i)).2 : Int) :=
    ⟨by omega, hmantissa, by omega, by omega, Or.inl hnormal⟩
  have hfactor : (m : ℚ) * 2 ^ e ≤
      ((mostDigits (291 + i)).1 * 2 ^ (mostDigits (291 + i)).2 : Nat) := by
    rw [← hvalue]
    refine hdigits.le_double hm ha ?_
    rw [hvalue]
    exact_mod_cast hle
  have hpower' : (n : ℚ) * 2 ^ f ≤
      ((abovePower (291 + i)).1 * 2 ^ (abovePower (291 + i)).2 : Nat) := by
    have hcast : (((abovePower (291 + i)).1 * 2 ^ (abovePower (291 + i)).2 : Nat) : ℚ) =
        (abovePower (291 + i)).1 * 2 ^ ((abovePower (291 + i)).2 : Int) := by
      rw [zpow_natCast]
      push_cast
      rfl
    rw [hcast]
    refine hpower.le_double hn hb ?_
    rw [← hcast]
    exact_mod_cast hten
  exact mul_lt_overflow hfactor hpower' (by positivity) hbelow

theorem toRat_le_mostShown {q : ℚ} {m : Nat} {e : Int} (hd : IsDouble m e) (h : RoundsTo q m e)
    (hother : ¬(m = 2 ^ 53 - 1 ∧ e = 971)) : q ≤ mostShown := by
  have hmost : (mostShown : ℚ) = (2 ^ 54 - 3) * halfUnit := by
    rw [mostShown, Nat.cast_mul]
    norm_num
  have hunit : (0 : ℚ) < halfUnit := by
    rw [cast_halfUnit]
    positivity
  have hhigh := h.le.2
  rw [hmost]
  rcases Int.lt_or_eq_of_le hd.greatest with hless | rfl
  · have hmantissa : (m : ℚ) + 1 ≤ 2 ^ 53 := by exact_mod_cast hd.lt
    have hpower : (2 : ℚ) ^ e ≤ halfUnit := by
      rw [cast_halfUnit]
      exact zpow_le_zpow_right₀ (by norm_num) (by omega)
    have hproduct : ((m : ℚ) + 1 / 2) * 2 ^ e ≤ (2 ^ 54 - 3) * halfUnit :=
      mul_le_mul (by linarith) hpower (by positivity) (by norm_num)
    linarith
  · have hmantissa : ((m + 2 : Nat) : ℚ) ≤ ((2 ^ 53 : Nat) : ℚ) := by
      have hlt := hd.lt
      exact_mod_cast (by omega : m + 2 ≤ 2 ^ 53)
    rw [double_halfUnit] at hhigh
    push_cast at hmantissa
    have hproduct : (2 * (m : ℚ) + 1) * halfUnit ≤ (2 ^ 54 - 3) * halfUnit :=
      mul_le_mul_of_nonneg_right (by linarith) (le_of_lt hunit)
    linarith

theorem exists_scale?_of_nonneg {m : Nat} {e : Int} (hd : IsDouble m e)
    (hother : ¬(m = 2 ^ 53 - 1 ∧ e = 971)) (hexponent : 0 ≤ (digits .even m e).exponent) :
    exists y, scale? (nearestDouble (digits .even m e).coefficient) (digits .even m e).exponent =
      some y ∧ IsFromZero y := by
  rcases digits_of_isDouble .even hd with ⟨hrounds, hpos, hle⟩
  have hmost := toRat_le_mostShown hd hrounds hother
  generalize digits .even m e = d at *
  obtain ⟨k, hk⟩ := Int.eq_ofNat_of_zero_le hexponent
  have hproduct : d.coefficient * 10 ^ k ≤ mostShown := by
    rw [Digits.toRat, hk, zpow_natCast] at hmost
    exact_mod_cast hmost
  have hk' : k ≤ greatestPower := by
    by_contra hgreat
    have hten : 10 ^ (greatestPower + 1) ≤ 10 ^ k := Nat.pow_le_pow_right (by decide) (by omega)
    have hless : mostShown < 10 ^ (greatestPower + 1) := by decide +kernel
    have hone : 10 ^ k ≤ d.coefficient * 10 ^ k := Nat.le_mul_of_pos_left _ hpos
    omega
  have hend : (d.coefficient : ℚ) < overflow := by
    have hlt : 10 ^ 17 < (2 ^ 54 - 1) * halfUnit := by decide +kernel
    rw [overflow_eq]
    exact_mod_cast lt_of_le_of_lt hle hlt
  rcases exists_nearestDouble hpos hend with ⟨v, f, hv, hcoefficient, heq⟩
  have hpower : exists p g, IsDouble p g ∧ RoundsTo ((10 ^ k : Nat) : ℚ) p g ∧
      powerOfTen k = double .positive p g := by
    have hlt : 10 ^ k < (2 ^ 54 - 1) * halfUnit :=
      lt_of_le_of_lt (Nat.pow_le_pow_right (by decide) hk') (by decide +kernel)
    exact exists_nearestDouble (Nat.pow_pos (by decide)) (by
      rw [overflow_eq]
      exact_mod_cast hlt)
  rcases hpower with ⟨p, g, hp, hrounds', heq'⟩
  have hfinite := isFromZero_mul hv hp
    (product_lt_overflow hle hproduct hk' hv hp hcoefficient hrounds')
  rw [← heq, ← heq'] at hfinite
  have hscale : scale? (nearestDouble d.coefficient) (k : Int) =
      some (nearestDouble d.coefficient * powerOfTen k) := by
    rw [scale?, Int.natAbs_natCast, if_pos (Int.natCast_nonneg k), if_pos hk']
    exact if_pos hfinite.isFinite
  rw [hk]
  exact ⟨_, hscale, hfinite⟩

/-!
# All numbers
-/

theorem digits_greatest : digits .even (2 ^ 53 - 1) 971 = ⟨17976931348623157, 292⟩ := by
  decide +kernel

theorem exists_reread?_double {m : Nat} {e : Int} (hd : IsDouble m e) :
    exists y, reread? (double .positive m e) = some y ∧ y.isFinite = true ∧ 0 ≤ y := by
  rw [reread?_double hd]
  by_cases hgreatest : m = 2 ^ 53 - 1 ∧ e = 971
  · rcases hgreatest with ⟨rfl, rfl⟩
    have hscale : (scale? (nearestDouble (written (digits .even (2 ^ 53 - 1) 971)).1)
        (written (digits .even (2 ^ 53 - 1) 971)).2).any
          (fun y => y.isFinite && decide (0 ≤ y)) = true := by
      rw [digits_greatest]
      decide +kernel
    rcases (Option.any_eq_true _ _).mp hscale with ⟨y, hsome, hy⟩
    rw [Bool.and_eq_true, decide_eq_true_eq] at hy
    exact ⟨y, hsome, hy⟩
  · rcases Int.lt_or_le (written (digits .even m e)).2 0 with hneg | hnonneg
    · rcases digits_of_isDouble .even hd with ⟨-, hpos, hle⟩
      have hlt := written_lt ⟨hle, fun hzero => absurd hzero (Nat.ne_of_gt hpos)⟩
      have hword : wordLimit < (2 ^ 54 - 1) * halfUnit := by decide +kernel
      have hend : ((written (digits .even m e)).1 : ℚ) < overflow := by
        rw [overflow_eq]
        exact Nat.cast_lt.mpr (lt_trans hlt hword)
      rcases exists_nearestDouble (written_pos hpos) hend with ⟨v, f, hv, -, heq⟩
      rcases exists_scale?_of_neg (Or.inr ⟨v, f, hv, heq⟩) hneg with ⟨y, hscale, hy⟩
      exact ⟨y, hscale, hy.isFinite, hy.le⟩
    · have hcoefficient : written (digits .even m e) =
          ((digits .even m e).coefficient, (digits .even m e).exponent) := by
        rw [written] at hnonneg ⊢
        split at hnonneg
        · cases hnonneg
        · rename_i hother
          exact if_neg hother
      rw [hcoefficient] at hnonneg ⊢
      rcases exists_scale?_of_nonneg hd hgreatest hnonneg with ⟨y, hscale, hy⟩
      exact ⟨y, hscale, hy.isFinite, hy.le⟩

theorem not_le_negative {m : Nat} {e : Int} (hd : IsDouble m e) : ¬0 ≤ double .negative m e := by
  show ¬decide (((0 : Float).toModel.unpack.compare (double .negative m e).toModel.unpack).any
    (·.isLE) = true) = true
  rw [unpack_double hd]
  exact Bool.false_ne_true

/-- A finite number from zero on is read back as a number of the same kind. -/
theorem exists_reread? {x : Float} (hfinite : x.isFinite = true) (hle : 0 ≤ x) :
    exists y, reread? x = some y ∧ y.isFinite = true ∧ 0 ≤ y := by
  rcases finite_cases hfinite with ⟨s, hzero⟩ | ⟨s, m, e, hd, rfl⟩
  · rw [reread?, exact_of_zero hzero]
    cases s with
    | positive => exact ⟨_, rfl, by decide⟩
    | negative => exact ⟨_, rfl, by decide⟩
  · cases s with
    | positive => exact exists_reread?_double hd
    | negative => exact absurd hle (not_le_negative hd)

end Json
end TransitSim
