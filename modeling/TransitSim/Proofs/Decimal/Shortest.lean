import TransitSim.Proofs.Decimal.Interval

/-!
# The shortest digits

Every positive double has digits, at most seventeen of them, and the decimal they make lies in the
interval of the double.
-/

namespace TransitSim
namespace Shortest

open Binary64

/-!
# The leading digit
-/

def decimalGuess (binary : Int) : Int :=
  binary * 30103 / 100000

def countedGuess (i : Nat) : Nat :=
  (i * 30103 + 7569378) / 100000

/-- Whether the guess for `i - 1074` is close. All is multiplied by powers that make the exponents
natural numbers. -/
def isClose (i : Nat) : Bool :=
  Nat.ble (Nat.pow 10 (countedGuess i) * Nat.pow 2 1074) (Nat.pow 2 i * Nat.pow 10 400) &&
    Nat.ble (Nat.pow 2 (i + 1) * Nat.pow 10 400) (Nat.pow 10 (countedGuess i + 3) * Nat.pow 2 1074)

def areClose : Nat → Bool
  | 0 => true
  | n + 1 => isClose n && areClose n

theorem isClose_of_areClose {n : Nat} (h : areClose n = true) : ∀ i < n, isClose i = true := by
  induction n with
  | zero => exact fun i hi => absurd hi (Nat.not_lt_zero i)
  | succ n ih =>
      rw [areClose, Bool.and_eq_true] at h
      intro i hi
      rcases Nat.lt_succ_iff_lt_or_eq.mp hi with hlt | rfl
      · exact ih h.2 i hlt
      · exact h.1

theorem areClose_doubles : areClose 2098 = true := by
  decide +kernel

theorem decimalGuess_spec {b : Int} (hlow : -1074 ≤ b) (hhigh : b ≤ 1023) :
    (10 : ℚ) ^ (decimalGuess b - 1) ≤ 2 ^ b ∧ (2 : ℚ) ^ (b + 1) ≤ 10 ^ (decimalGuess b + 2) := by
  obtain ⟨i, rfl⟩ : exists i : Nat, b = (i : Int) - 1074 := ⟨(b + 1074).toNat, by omega⟩
  have hguess : decimalGuess (i - 1074) = (countedGuess i : Int) - 399 := by
    rw [decimalGuess, countedGuess]
    omega
  have hclose := isClose_of_areClose areClose_doubles i (by omega)
  rw [isClose, Bool.and_eq_true, Nat.ble_eq, Nat.ble_eq] at hclose
  rw [hguess]
  generalize countedGuess i = j at *
  have hbelow : (10 : ℚ) ^ j * 2 ^ 1074 ≤ 2 ^ i * 10 ^ 400 := by
    simpa only [Nat.pow_eq, Nat.cast_mul, Nat.cast_pow, Nat.cast_ofNat] using
      (Nat.cast_le (α := ℚ)).mpr hclose.1
  have habove : (2 : ℚ) ^ (i + 1) * 10 ^ 400 ≤ 10 ^ (j + 3) * 2 ^ 1074 := by
    simpa only [Nat.pow_eq, Nat.cast_mul, Nat.cast_pow, Nat.cast_ofNat] using
      (Nat.cast_le (α := ℚ)).mpr hclose.2
  constructor
  · rw [show (j : Int) - 399 - 1 = (j : Int) - (400 : Nat) by omega,
      show (i : Int) - 1074 = (i : Int) - (1074 : Nat) by omega, zpow_sub₀ (by norm_num),
      zpow_sub₀ (by norm_num), div_le_div_iff₀ (by positivity) (by positivity)]
    simpa only [zpow_natCast] using hbelow
  · rw [show (j : Int) - 399 + 2 = ((j + 3 : Nat) : Int) - (400 : Nat) by omega,
      show (i : Int) - 1074 + 1 = ((i + 1 : Nat) : Int) - (1074 : Nat) by omega,
      zpow_sub₀ (by norm_num), zpow_sub₀ (by norm_num),
      div_le_div_iff₀ (by positivity) (by positivity)]
    simpa only [zpow_natCast] using habove

theorem log2_sub_ofBinary {m : Nat} (hm : 0 < m) (e : Int) :
    ((Ratio.ofBinary m e).num.log2 : Int) - (Ratio.ofBinary m e).den.log2 = m.log2 + e := by
  have hm0 : m ≠ 0 := Nat.ne_of_gt hm
  rw [Ratio.ofBinary]
  split
  case isTrue he =>
    have hlog : (m * 2 ^ e.toNat).log2 = m.log2 + e.toNat := by
      rw [Nat.log2_eq_iff (Nat.mul_ne_zero hm0 (by positivity)), Nat.pow_add,
        show m.log2 + e.toNat + 1 = m.log2 + 1 + e.toNat by omega, Nat.pow_add]
      exact ⟨Nat.mul_le_mul_right _ (Nat.log2_self_le hm0),
        Nat.mul_lt_mul_of_pos_right Nat.lt_log2_self (by positivity)⟩
    simp only [Nat.pow_eq, hlog]
    have hone : Nat.log2 1 = 0 := by decide
    omega
  case isFalse he =>
    simp only [Nat.pow_eq, Nat.log2_two_pow]
    omega

theorem leadingExponent_ofBinary {m : Nat} (hm : 0 < m) (e : Int) :
    leadingExponent (.ofBinary m e) =
      (let guess := decimalGuess ((m.log2 : Int) + e)
      let scaled := (Ratio.ofBinary m e).overPower guess
      if scaled.num < scaled.den then guess - 1
      else if 10 * scaled.den ≤ scaled.num then guess + 1
      else guess) := by
  rw [leadingExponent, log2_sub_ofBinary hm]
  rfl

theorem bounds_of_isDouble {m : Nat} {e : Int} (h : IsDouble m e) :
    (2 : ℚ) ^ ((m.log2 : Int) + e) ≤ m * 2 ^ e ∧
      m * 2 ^ e < (2 : ℚ) ^ ((m.log2 : Int) + e + 1) := by
  have hm0 : m ≠ 0 := Nat.ne_of_gt h.pos
  have hunit : (0 : ℚ) < 2 ^ e := by positivity
  have hlow : ((2 : ℚ) ^ m.log2) ≤ m := by exact_mod_cast Nat.log2_self_le hm0
  have hhigh : (m : ℚ) < 2 ^ (m.log2 + 1) := by exact_mod_cast Nat.lt_log2_self
  constructor
  · rw [zpow_add₀ (by norm_num), zpow_natCast]
    exact mul_le_mul_of_nonneg_right hlow (le_of_lt hunit)
  · rw [show (m.log2 : Int) + e + 1 = ((m.log2 + 1 : Nat) : Int) + e by omega,
      zpow_add₀ (by norm_num), zpow_natCast]
    exact mul_lt_mul_of_pos_right hhigh hunit

theorem log2_bounds_of_isDouble {m : Nat} {e : Int} (h : IsDouble m e) :
    -1074 ≤ (m.log2 : Int) + e ∧ (m.log2 : Int) + e ≤ 1023 := by
  have hlog : m.log2 < 53 := (Nat.log2_lt (Nat.ne_of_gt h.pos)).mpr h.lt
  have hleast : -1074 ≤ e := h.least
  have hgreatest := h.greatest
  omega

theorem leadingExponent_spec {m : Nat} {e : Int} (h : IsDouble m e) :
    (10 : ℚ) ^ leadingExponent (.ofBinary m e) ≤ m * 2 ^ e ∧
      m * 2 ^ e < (10 : ℚ) ^ (leadingExponent (.ofBinary m e) + 1) := by
  rcases bounds_of_isDouble h with ⟨hlow, hhigh⟩
  rcases log2_bounds_of_isDouble h with ⟨hleast, hgreatest⟩
  rcases decimalGuess_spec hleast hgreatest with ⟨hbelow, habove⟩
  have hscaled := Ratio.toRat_overPower (.ofBinary m e) (decimalGuess ((m.log2 : Int) + e))
  have hden := Ratio.den_overPower_pos (Ratio.den_ofBinary_pos m e)
    (decimalGuess ((m.log2 : Int) + e))
  rw [Ratio.toRat_ofBinary] at hscaled
  rw [leadingExponent_ofBinary h.pos]
  dsimp only
  generalize decimalGuess ((m.log2 : Int) + e) = g at *
  generalize (Ratio.ofBinary m e).overPower g = scaled at *
  have hden' : (0 : ℚ) < scaled.den := by exact_mod_cast hden
  have hunit : (0 : ℚ) < 10 ^ g := by positivity
  have hvalue : (m : ℚ) * 2 ^ e = scaled.toRat * 10 ^ g := by
    rw [hscaled, div_mul_cancel₀ _ (ne_of_gt hunit)]
  have hten : (10 : ℚ) ^ (g + 1) = 10 * 10 ^ g := by rw [zpow_add_one₀ (by norm_num), mul_comm]
  split
  case isTrue hsmall =>
    have hless : scaled.toRat < 1 := by
      rw [Ratio.toRat, div_lt_one hden']
      exact_mod_cast hsmall
    rw [Int.sub_add_cancel]
    exact ⟨le_trans hbelow hlow, hvalue ▸ mul_lt_of_lt_one_left hunit hless⟩
  case isFalse hsmall =>
    have hone : 1 ≤ scaled.toRat := by
      rw [Ratio.toRat, one_le_div hden']
      exact_mod_cast Nat.le_of_not_lt hsmall
    split
    case isTrue hgreat =>
      have hmore : 10 ≤ scaled.toRat := by
        rw [Ratio.toRat, le_div_iff₀ hden']
        exact_mod_cast hgreat
      constructor
      · rw [hten, hvalue]
        exact mul_le_mul_of_nonneg_right hmore (le_of_lt hunit)
      · rw [Int.add_assoc]
        exact lt_of_lt_of_le hhigh habove
    case isFalse hgreat =>
      have hless : scaled.toRat < 10 := by
        rw [Ratio.toRat, div_lt_iff₀ hden']
        exact_mod_cast Nat.lt_of_not_le hgreat
      constructor
      · rw [hvalue]
        exact le_mul_of_one_le_left (le_of_lt hunit) hone
      · rw [hten, hvalue]
        exact mul_lt_mul_of_pos_right hless hunit

/-!
# One grid
-/

section
variable {tie : Tie} {closed : Bool} {low high value : Ratio}

theorem pick?_some (hlow : 0 < low.den) (hhigh : 0 < high.den) {c : Nat}
    (h : pick? tie closed low high value = some c) :
    Between closed low.toRat high.toRat c ∧
      (c = value.num / value.den ∨ c = value.num / value.den + 1) := by
  have hiff := Ratio.between_iff closed hlow hhigh
  rw [pick?.eq_def] at h
  generalize value.num / value.den = whole at *
  dsimp only at h
  cases hfirst : (low.below closed whole && high.above closed whole) with
  | false =>
      cases hsecond : (low.below closed (whole + 1) && high.above closed (whole + 1)) with
      | false => simp [hfirst, hsecond] at h
      | true =>
          simp only [hfirst, hsecond, Option.some.injEq] at h
          subst h
          exact ⟨(hiff _).mp hsecond, Or.inr rfl⟩
  | true =>
      have hleft := (hiff _).mp hfirst
      cases hsecond : (low.below closed (whole + 1) && high.above closed (whole + 1)) with
      | false =>
          simp only [hfirst, hsecond, Option.some.injEq] at h
          subst h
          exact ⟨hleft, Or.inl rfl⟩
      | true =>
          have hright := (hiff _).mp hsecond
          simp only [hfirst, hsecond] at h
          have hc : c = whole ∨ c = whole + 1 := by
            split at h
            · exact Or.inl (Option.some.inj h).symm
            · split at h
              · exact Or.inr (Option.some.inj h).symm
              · cases tie with
                | up => exact Or.inr (Option.some.inj h).symm
                | even =>
                    have heven : whole + whole % 2 = c := Option.some.inj h
                    omega
          rcases hc with rfl | rfl
          · exact ⟨hleft, Or.inl rfl⟩
          · exact ⟨hright, Or.inr rfl⟩

theorem pick?_isSome (tie : Tie) (hlow : 0 < low.den) (hhigh : 0 < high.den) (hden : 0 < value.den)
    (hvalue : Between closed low.toRat high.toRat value.toRat) {n : Nat}
    (hn : Between closed low.toRat high.toRat n) :
    (pick? tie closed low high value).isSome := by
  have hiff := Ratio.between_iff closed hlow hhigh
  rcases Ratio.whole_le value hden with ⟨hbelow, habove⟩
  rw [pick?.eq_def]
  generalize value.num / value.den = whole at *
  dsimp only
  have hneighbour : (low.below closed whole && high.above closed whole) = true ∨
      (low.below closed (whole + 1) && high.above closed (whole + 1)) = true := by
    by_cases hle : n ≤ whole
    · have hle' : (n : ℚ) ≤ whole := by exact_mod_cast hle
      exact Or.inl ((hiff whole).mpr (hn.convex hvalue hle' hbelow))
    · have hge : ((whole + 1 : Nat) : ℚ) ≤ n := by exact_mod_cast Nat.lt_of_not_le hle
      refine Or.inr ((hiff (whole + 1)).mpr (hvalue.convex hn ?_ hge))
      push_cast
      exact le_of_lt habove
  cases hfirst : (low.below closed whole && high.above closed whole) <;>
    cases hsecond : (low.below closed (whole + 1) && high.above closed (whole + 1))
  · simp [hfirst, hsecond] at hneighbour
  · rfl
  · rfl
  · dsimp only
    split
    · rfl
    · split
      · rfl
      · cases tie <;> rfl

/-!
# The search
-/

theorem between_overPower_iff {k : Int} {n : Nat} :
    Between closed (low.overPower k).toRat (high.overPower k).toRat n ↔
      Between closed low.toRat high.toRat (n * 10 ^ k) := by
  rw [Ratio.toRat_overPower, Ratio.toRat_overPower]
  exact Between.div_iff (by positivity)

theorem search_spec (tie : Tie) (hlow : 0 < low.den) (hhigh : 0 < high.den) (hden : 0 < value.den)
    (hvalue : Between closed low.toRat high.toRat value.toRat) {leading : Int}
    {fuel count i n : Nat} (hi : i < fuel)
    (hn : Between closed low.toRat high.toRat (n * 10 ^ (leading - (count + i : Nat) + 1))) :
    Between closed low.toRat high.toRat
        (search tie closed low high value leading fuel count).toRat ∧
      leading - (count + i : Nat) + 1 ≤
        (search tie closed low high value leading fuel count).exponent ∧
      ((search tie closed low high value leading fuel count).coefficient : ℚ) ≤
        value.toRat / 10 ^ (search tie closed low high value leading fuel count).exponent + 1 := by
  induction fuel generalizing count i with
  | zero => cases hi
  | succ fuel ih =>
      rw [search]
      cases hpick : pick? tie closed (low.overPower (leading - count + 1))
          (high.overPower (leading - count + 1)) (value.overPower (leading - count + 1)) with
      | some c =>
          rcases pick?_some (Ratio.den_overPower_pos hlow _) (Ratio.den_overPower_pos hhigh _) hpick
            with ⟨hbetween, hc⟩
          rcases Ratio.whole_le _ (Ratio.den_overPower_pos hden (leading - count + 1)) with
            ⟨hwhole, -⟩
          rw [Ratio.toRat_overPower] at hwhole
          refine ⟨between_overPower_iff.mp hbetween, ?_, ?_⟩
          · push_cast
            omega
          · rcases hc with rfl | rfl
            · exact le_trans hwhole (le_add_of_nonneg_right zero_le_one)
            · push_cast
              exact add_le_add_left hwhole 1
      | none =>
          cases i with
          | zero =>
              have hsome := pick?_isSome tie (Ratio.den_overPower_pos hlow _)
                (Ratio.den_overPower_pos hhigh _) (Ratio.den_overPower_pos hden _)
                (by
                  rw [Ratio.toRat_overPower, Ratio.toRat_overPower, Ratio.toRat_overPower]
                  rw [Between.div_iff (by positivity), div_mul_cancel₀ _ (by positivity)]
                  exact hvalue)
                (between_overPower_iff.mpr hn)
              rw [Nat.add_zero, hpick] at hsome
              cases hsome
          | succ i =>
              rw [show count + (i + 1) = count + 1 + i by omega] at hn ⊢
              exact ih (Nat.lt_of_succ_lt_succ hi) hn

end

/-!
# Trailing zeros
-/

theorem trim_spec (fuel : Nat) (d : Digits) :
    (d.trim fuel).toRat = d.toRat ∧ d.exponent ≤ (d.trim fuel).exponent ∧
      (d.trim fuel).coefficient ≤ d.coefficient ∧
        (0 < d.coefficient → 0 < (d.trim fuel).coefficient) := by
  induction fuel generalizing d with
  | zero => exact ⟨rfl, le_refl _, le_refl _, id⟩
  | succ fuel ih =>
      rw [Digits.trim]
      split
      case isTrue h =>
        rcases ih ⟨d.coefficient / 10, d.exponent + 1⟩ with ⟨hsame, hexponent, hle, hpos⟩
        dsimp only at hexponent hle hpos
        have hten : d.coefficient = d.coefficient / 10 * 10 := by omega
        refine ⟨hsame.trans ?_, by omega, by omega, fun _ => hpos (by omega)⟩
        rw [Digits.toRat, Digits.toRat, zpow_add_one₀ (by norm_num)]
        have hten' : (d.coefficient : ℚ) = (d.coefficient / 10 : Nat) * 10 := by exact_mod_cast hten
        rw [hten']
        ring
      case isFalse => exact ⟨rfl, le_refl _, le_refl _, id⟩

/-!
# The digits of a double
-/

theorem exists_seventeen {m : Nat} {e : Int} (h : IsDouble m e) :
    exists n : Nat, RoundsTo (n * 10 ^ (leadingExponent (.ofBinary m e) - 16)) m e := by
  have hstep := (leadingExponent_spec h).1
  rcases toRat_interval h.pos e with ⟨hlow, -⟩
  generalize leadingExponent (.ofBinary m e) = leading at *
  have hunit : (0 : ℚ) < 2 ^ e := by positivity
  have hgrid : (0 : ℚ) < 10 ^ (leading - 16) := by positivity
  have hsplit : (10 : ℚ) ^ leading = 10 ^ (leading - 16) * 10 ^ 16 := by
    rw [← zpow_natCast, ← zpow_add₀ (by norm_num)]
    congr 1
    omega
  rw [hsplit] at hstep
  have hwide : (10 : ℚ) ^ (leading - 16) <
      (m + 1 / 2) * 2 ^ e - (m - gapBelow m e / 4) * 2 ^ e := by
    rcases gapBelow_cases m e with ⟨hgap, hm, -⟩ | ⟨hgap, -⟩
    · rw [hm] at hstep
      rw [hgap, hm]
      push_cast at hstep ⊢
      nlinarith
    · have hm : (m : ℚ) < 2 ^ 53 := by exact_mod_cast h.lt
      rw [hgap]
      push_cast
      nlinarith
  rcases Ratio.whole_le _ (Ratio.den_overPower_pos (den_interval_pos m e).1 (leading - 16)) with
    ⟨hbelow, habove⟩
  rw [Ratio.toRat_overPower, hlow, le_div_iff₀ hgrid] at hbelow
  rw [Ratio.toRat_overPower, hlow, div_lt_iff₀ hgrid] at habove
  generalize ((interval m e).1.overPower (leading - 16)).num /
    ((interval m e).1.overPower (leading - 16)).den = whole at *
  refine ⟨whole + 1, Between.of_lt ?_ ?_⟩
  · push_cast
    exact habove
  · push_cast
    linarith

/-- What can be said of the digits of a double: they lie in its interval, and if some grid that is
tried has a number there, they are not finer. -/
theorem digits_spec (tie : Tie) {m : Nat} {e : Int} (h : IsDouble m e) {i n : Nat} (hi : i < 17)
    (hn : RoundsTo (n * 10 ^ (leadingExponent (.ofBinary m e) - i)) m e) :
    RoundsTo (digits tie m e).toRat m e ∧
      leadingExponent (.ofBinary m e) - i ≤ (digits tie m e).exponent ∧
        ((digits tie m e).coefficient : ℚ) ≤
          m * 2 ^ e / 10 ^ (leadingExponent (.ofBinary m e) - i) + 1 := by
  rcases toRat_interval h.pos e with ⟨hlow, hhigh⟩
  rcases den_interval_pos m e with ⟨hlowden, hhighden⟩
  have hroot : ∀ q, RoundsTo q m e ↔
      Between (m % 2 == 0) (interval m e).1.toRat (interval m e).2.toRat q := by
    intro q
    rw [hlow, hhigh]
    rfl
  have hvalue : Between (m % 2 == 0) (interval m e).1.toRat (interval m e).2.toRat
      (Ratio.ofBinary m e).toRat := by
    rw [← hroot, Ratio.toRat_ofBinary]
    exact roundsTo_self m e
  have hgrid : leadingExponent (.ofBinary m e) - (i : Int) =
      leadingExponent (.ofBinary m e) - (1 + i : Nat) + 1 := by
    push_cast
    omega
  rw [hgrid, hroot] at hn
  rcases search_spec tie hlowden hhighden (Ratio.den_ofBinary_pos m e) hvalue hi hn with
    ⟨hbetween, hleast, hle⟩
  rcases trim_spec 20 (search tie (m % 2 == 0) (interval m e).1 (interval m e).2 (.ofBinary m e)
    (leadingExponent (.ofBinary m e)) 17 1) with ⟨hsame, hexponent, htrim, -⟩
  have hdigits : digits tie m e = (search tie (m % 2 == 0) (interval m e).1 (interval m e).2
    (.ofBinary m e) (leadingExponent (.ofBinary m e)) 17 1).trim 20 := rfl
  rw [hdigits]
  generalize search tie (m % 2 == 0) (interval m e).1 (interval m e).2 (.ofBinary m e)
    (leadingExponent (.ofBinary m e)) 17 1 = d at *
  rw [← hgrid] at hleast
  refine ⟨by rwa [hroot, hsame], by omega, ?_⟩
  have hcoefficient : ((d.trim 20).coefficient : ℚ) ≤ d.coefficient := by exact_mod_cast htrim
  have hpower : (10 : ℚ) ^ (leadingExponent (.ofBinary m e) - (i : Int)) ≤ 10 ^ d.exponent :=
    zpow_le_zpow_right₀ (by norm_num) hleast
  have hquotient : m * 2 ^ e / (10 : ℚ) ^ d.exponent ≤
      m * 2 ^ e / 10 ^ (leadingExponent (.ofBinary m e) - (i : Int)) :=
    div_le_div_of_nonneg_left (by positivity) (by positivity) hpower
  rw [Ratio.toRat_ofBinary] at hle
  linarith

theorem digits_of_isDouble (tie : Tie) {m : Nat} {e : Int} (h : IsDouble m e) :
    RoundsTo (digits tie m e).toRat m e ∧ 0 < (digits tie m e).coefficient ∧
      (digits tie m e).coefficient ≤ 10 ^ 17 := by
  rcases exists_seventeen h with ⟨n, hn⟩
  rcases digits_spec tie h (i := 16) (by decide) hn with ⟨hrounds, -, hle⟩
  have hpos := hrounds.pos h.pos
  have hupper := (leadingExponent_spec h).2
  generalize leadingExponent (.ofBinary m e) = leading at *
  refine ⟨hrounds, Nat.pos_of_ne_zero fun hzero => ?_, ?_⟩
  · rw [Digits.toRat, hzero, Nat.cast_zero, zero_mul] at hpos
    exact lt_irrefl _ hpos
  · have hquotient : m * 2 ^ e / (10 : ℚ) ^ (leading - (16 : Nat)) < 10 ^ 17 := by
      rw [div_lt_iff₀ (by positivity), ← zpow_natCast, ← zpow_add₀ (by norm_num)]
      have hexponent : ((17 : Nat) : Int) + (leading - (16 : Nat)) = leading + 1 := by omega
      rwa [hexponent]
    have hlt : ((digits tie m e).coefficient : ℚ) < ((10 ^ 17 + 1 : Nat) : ℚ) := by
      push_cast
      linarith
    exact Nat.le_of_lt_succ (by exact_mod_cast hlt)

end Shortest
end TransitSim
