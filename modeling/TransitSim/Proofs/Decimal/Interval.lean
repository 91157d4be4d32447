import Mathlib.Algebra.Order.Field.Power
import Mathlib.Algebra.Order.Field.Rat
import Mathlib.Tactic.Linarith
import Mathlib.Tactic.NormNum
import Mathlib.Tactic.Positivity
import Mathlib.Tactic.Ring
import TransitSim.Decimal.Shortest

/-!
# Intervals of rounding

The reals that round to a positive double form an interval around it, which is closed exactly when
the mantissa is even. All that is said here is said of rational numbers.
-/

namespace TransitSim

/-!
# Between two ends
-/

def Between (closed : Bool) (low high q : ℚ) : Prop :=
  if closed then low ≤ q ∧ q ≤ high else low < q ∧ q < high

namespace Between

variable {closed : Bool} {low high q r x : ℚ}

theorem le (h : Between closed low high q) : low ≤ q ∧ q ≤ high := by
  cases closed with
  | false => exact ⟨le_of_lt h.1, le_of_lt h.2⟩
  | true => exact h

theorem of_lt (hlow : low < q) (hhigh : q < high) : Between closed low high q := by
  cases closed with
  | false => exact ⟨hlow, hhigh⟩
  | true => exact ⟨le_of_lt hlow, le_of_lt hhigh⟩

theorem convex (hq : Between closed low high q) (hr : Between closed low high r) (hlow : q ≤ x)
    (hhigh : x ≤ r) : Between closed low high x := by
  cases closed with
  | false => exact ⟨lt_of_lt_of_le hq.1 hlow, lt_of_le_of_lt hhigh hr.2⟩
  | true => exact ⟨le_trans hq.1 hlow, le_trans hhigh hr.2⟩

theorem div_iff {unit : ℚ} (hunit : 0 < unit) :
    Between closed (low / unit) (high / unit) q ↔ Between closed low high (q * unit) := by
  cases closed with
  | false => exact and_congr (div_lt_iff₀ hunit) (lt_div_iff₀ hunit)
  | true => exact and_congr (div_le_iff₀ hunit) (le_div_iff₀ hunit)

end Between

/-!
# Ratios and decimals
-/

namespace Shortest

open Binary64

def Digits.toRat (d : Digits) : ℚ := d.coefficient * 10 ^ d.exponent

namespace Ratio

def toRat (q : Ratio) : ℚ := q.num / q.den

theorem toRat_ofBinary (m : Nat) (e : Int) : (ofBinary m e).toRat = m * 2 ^ e := by
  rw [ofBinary, toRat]
  split
  case isTrue he =>
    obtain ⟨k, rfl⟩ := Int.eq_ofNat_of_zero_le he
    simp
  case isFalse he =>
    obtain ⟨k, hk⟩ : exists k : Nat, e = -(k : Int) := ⟨(-e).toNat, by omega⟩
    subst hk
    simp [div_eq_mul_inv]

theorem den_ofBinary_pos (m : Nat) (e : Int) : 0 < (ofBinary m e).den := by
  rw [ofBinary]
  split
  · exact Nat.one_pos
  · exact Nat.pow_pos (by decide)

theorem toRat_overPower (q : Ratio) (k : Int) : (q.overPower k).toRat = q.toRat / 10 ^ k := by
  rw [overPower, toRat, toRat]
  split
  case isTrue hk =>
    obtain ⟨j, rfl⟩ := Int.eq_ofNat_of_zero_le hk
    simp [div_div]
  case isFalse hk =>
    obtain ⟨j, hj⟩ : exists j : Nat, k = -(j : Int) := ⟨(-k).toNat, by omega⟩
    subst hj
    simp [mul_div_right_comm]

theorem den_overPower_pos {q : Ratio} (h : 0 < q.den) (k : Int) : 0 < (q.overPower k).den := by
  rw [overPower]
  split
  · exact Nat.mul_pos h (Nat.pow_pos (by decide))
  · exact h

theorem whole_le (q : Ratio) (h : 0 < q.den) :
    ((q.num / q.den : Nat) : ℚ) ≤ q.toRat ∧ q.toRat < ((q.num / q.den : Nat) : ℚ) + 1 := by
  have hden : (0 : ℚ) < q.den := by exact_mod_cast h
  rw [toRat, le_div_iff₀ hden, div_lt_iff₀ hden]
  constructor
  · exact_mod_cast Nat.div_mul_le_self q.num q.den
  · have hlt : q.num < (q.num / q.den + 1) * q.den := by
      rw [Nat.mul_comm]
      exact Nat.lt_mul_div_succ q.num h
    exact_mod_cast hlt

variable {low high : Ratio}

theorem between_iff (closed : Bool) (hlow : 0 < low.den) (hhigh : 0 < high.den) (n : Nat) :
    (low.below closed n && high.above closed n) = true ↔
      Between closed low.toRat high.toRat n := by
  have hlow' : (0 : ℚ) < low.den := by exact_mod_cast hlow
  have hhigh' : (0 : ℚ) < high.den := by exact_mod_cast hhigh
  cases closed with
  | false =>
      simp only [below, above, Between, Bool.false_eq_true, if_false, Bool.and_eq_true,
        decide_eq_true_eq, toRat, div_lt_iff₀ hlow', lt_div_iff₀ hhigh']
      norm_cast
  | true =>
      simp only [below, above, Between, if_true, Bool.and_eq_true, decide_eq_true_eq, toRat,
        div_le_iff₀ hlow', le_div_iff₀ hhigh']
      norm_cast

end Ratio
end Shortest

/-!
# Doubles and what rounds to them
-/

namespace Binary64

/-- Whether these are the mantissa and the exponent of a positive double. -/
structure IsDouble (m : Nat) (e : Int) : Prop where
  pos : 0 < m
  lt : m < 2 ^ 53
  least : leastExponent ≤ e
  greatest : e ≤ 971
  normal : 2 ^ 52 ≤ m ∨ e = leastExponent

def gapBelow (m : Nat) (e : Int) : Nat :=
  if m = 2 ^ 52 ∧ leastExponent < e then 1 else 2

/-- Whether a number rounds to `m · 2 ^ e`. -/
def RoundsTo (q : ℚ) (m : Nat) (e : Int) : Prop :=
  Between (m % 2 == 0) ((m - gapBelow m e / 4) * 2 ^ e) ((m + 1 / 2) * 2 ^ e) q

theorem gapBelow_cases (m : Nat) (e : Int) :
    gapBelow m e = 1 ∧ m = 2 ^ 52 ∧ leastExponent < e ∨
      gapBelow m e = 2 ∧ ¬(m = 2 ^ 52 ∧ leastExponent < e) := by
  rw [gapBelow]
  split
  case isTrue h => exact Or.inl ⟨rfl, h⟩
  case isFalse h => exact Or.inr ⟨rfl, h⟩

theorem gapBelow_pos (m : Nat) (e : Int) : 0 < gapBelow m e ∧ gapBelow m e ≤ 2 := by
  rcases gapBelow_cases m e with ⟨h, -⟩ | ⟨h, -⟩ <;> omega

theorem RoundsTo.pos {q : ℚ} {m : Nat} {e : Int} (h : RoundsTo q m e) (hm : 0 < m) : 0 < q := by
  have hunit : (0 : ℚ) < 2 ^ e := by positivity
  have hgap : (gapBelow m e : ℚ) ≤ 2 := by exact_mod_cast (gapBelow_pos m e).2
  have hmantissa : (1 : ℚ) ≤ m := by exact_mod_cast hm
  have hlow : 0 < (m - (gapBelow m e : ℚ) / 4) * 2 ^ e := mul_pos (by linarith) hunit
  exact lt_of_lt_of_le hlow h.le.1

theorem roundsTo_self (m : Nat) (e : Int) : RoundsTo (m * 2 ^ e) m e := by
  have hunit : (0 : ℚ) < 2 ^ e := by positivity
  have hgap : (0 : ℚ) < gapBelow m e := by exact_mod_cast (gapBelow_pos m e).1
  apply Between.of_lt <;> nlinarith

end Binary64

namespace Shortest

open Binary64

theorem quarter_zpow (e : Int) : (2 : ℚ) ^ (e - 2) = 2 ^ e / 4 := by
  rw [zpow_sub₀ (by norm_num)]
  norm_num

theorem toRat_interval {m : Nat} (hm : 0 < m) (e : Int) :
    (interval m e).1.toRat = (m - gapBelow m e / 4) * 2 ^ e ∧
      (interval m e).2.toRat = (m + 1 / 2) * 2 ^ e := by
  have hgap : gapBelow m e ≤ 4 * m := by
    have hle := (gapBelow_pos m e).2
    omega
  have hlow : (interval m e).1 = Ratio.ofBinary (4 * m - gapBelow m e) (e - 2) := rfl
  have hhigh : (interval m e).2 = Ratio.ofBinary (4 * m + 2) (e - 2) := rfl
  rw [hlow, hhigh, Ratio.toRat_ofBinary, Ratio.toRat_ofBinary, quarter_zpow, Nat.cast_sub hgap]
  push_cast
  constructor <;> ring

theorem den_interval_pos (m : Nat) (e : Int) :
    0 < (interval m e).1.den ∧ 0 < (interval m e).2.den :=
  ⟨Ratio.den_ofBinary_pos _ _, Ratio.den_ofBinary_pos _ _⟩

end Shortest
end TransitSim
