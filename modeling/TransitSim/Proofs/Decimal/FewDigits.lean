import TransitSim.Proofs.Decimal.Shortest

/-!
# Decimals of few digits

A decimal of at most fifteen digits comes back from the double to which it rounds: the doubles are
so dense that no other decimal on its grid rounds to the same one.
-/

namespace TransitSim
namespace Shortest

open Binary64

theorem eq_of_roundsTo_grid {m : Nat} {e : Int} (hnormal : 2 ^ 52 ≤ m) {a b j : Nat}
    (ha : RoundsTo (a / 10 ^ j) m e) (hb : RoundsTo (b / 10 ^ j) m e)
    (hfine : (m : ℚ) * 2 ^ e * 10 ^ j < 2 ^ 52) : a = b := by
  by_contra hne
  wlog hlt : a < b generalizing a b
  · exact this hb ha (Ne.symm hne) (by omega)
  have hgrid : (0 : ℚ) < 10 ^ j := by positivity
  have hunit : (0 : ℚ) < 2 ^ e := by positivity
  have hgap : (gapBelow m e : ℚ) ≤ 2 := by exact_mod_cast (gapBelow_pos m e).2
  have hmantissa : (2 : ℚ) ^ 52 ≤ m := by exact_mod_cast hnormal
  have hstep : ((a + 1 : Nat) : ℚ) ≤ b := by exact_mod_cast hlt
  push_cast at hstep
  have hlow := ha.le.1
  have hhigh := hb.le.2
  rw [le_div_iff₀ hgrid] at hlow
  rw [div_le_iff₀ hgrid] at hhigh
  have hbelow : ((m : ℚ) - 1 / 2) * 2 ^ e * 10 ^ j ≤ (m - gapBelow m e / 4) * 2 ^ e * 10 ^ j :=
    mul_le_mul_of_nonneg_right (mul_le_mul_of_nonneg_right (by linarith) (le_of_lt hunit))
      (le_of_lt hgrid)
  have hwidth : (1 : ℚ) ≤ 2 ^ e * 10 ^ j := by linarith
  have hcount : (2 : ℚ) ^ 52 ≤ m * (2 ^ e * 10 ^ j) :=
    le_trans hmantissa (le_mul_of_one_le_right (by positivity) hwidth)
  rw [← mul_assoc] at hcount
  exact absurd hfine (not_lt.mpr hcount)

theorem close_of_roundsTo {q : ℚ} {m : Nat} {e : Int} (hd : IsDouble m e) (h : RoundsTo q m e)
    (hq : (2 : ℚ) ^ (-100 : Int) ≤ q) :
    2 ^ 52 ≤ m ∧ (1 - 1 / 2 ^ 53) * (m * 2 ^ e) ≤ q ∧ q ≤ (1 + 1 / 2 ^ 53) * (m * 2 ^ e) := by
  have hunit : (0 : ℚ) < 2 ^ e := by positivity
  rcases h.le with ⟨hlow, hhigh⟩
  have hnormal : 2 ^ 52 ≤ m := by
    refine hd.normal.resolve_right fun hleast => ?_
    have hm : (m : ℚ) + 1 / 2 ≤ 2 ^ 53 := by
      have hle : ((m + 1 : Nat) : ℚ) ≤ 2 ^ 53 := by exact_mod_cast hd.lt
      push_cast at hle
      linarith
    have htiny : q ≤ 2 ^ 53 * 2 ^ (-1074 : Int) := by
      rw [hleast] at hhigh
      exact le_trans hhigh (mul_le_mul_of_nonneg_right hm (by positivity))
    have hless : (2 : ℚ) ^ 53 * 2 ^ (-1074 : Int) < 2 ^ (-100 : Int) := by
      rw [← zpow_natCast, ← zpow_add₀ (by norm_num)]
      exact zpow_lt_zpow_right₀ (by norm_num) (by norm_num)
    linarith
  have hmantissa : (2 : ℚ) ^ 52 * 2 ^ e ≤ m * 2 ^ e :=
    mul_le_mul_of_nonneg_right (by exact_mod_cast hnormal) (le_of_lt hunit)
  have hgap : (gapBelow m e : ℚ) ≤ 2 := by exact_mod_cast (gapBelow_pos m e).2
  have hbelow : ((m : ℚ) - 1 / 2) * 2 ^ e ≤ (m - gapBelow m e / 4) * 2 ^ e :=
    mul_le_mul_of_nonneg_right (by linarith) (le_of_lt hunit)
  exact ⟨hnormal, by linarith, by linarith⟩

theorem le_of_few {n k : Nat} (hpos : 0 < n) (hk : k ≤ 21) :
    (2 : ℚ) ^ (-100 : Int) ≤ n / 10 ^ k := by
  have hone : (1 : ℚ) ≤ n := by exact_mod_cast hpos
  have hpower : (10 : ℚ) ^ k ≤ 10 ^ 21 := pow_le_pow_right₀ (by norm_num) hk
  calc (2 : ℚ) ^ (-100 : Int) ≤ 1 / 10 ^ 21 := by norm_num
    _ ≤ n / 10 ^ k := div_le_div₀ (by linarith) hone (by positivity) hpower

theorem exists_grid {n k m : Nat} {e : Int} (hpos : 0 < n) (hn : n < 10 ^ 15) (hk : k ≤ 21)
    (hd : IsDouble m e) (h : RoundsTo (n / 10 ^ k) m e) :
    2 ^ 52 ≤ m ∧ exists i j a : Nat, i < 17 ∧ j ≤ 22 ∧
      leadingExponent (.ofBinary m e) - i = -(j : Int) ∧ (a : ℚ) / 10 ^ j = n / 10 ^ k ∧
        (m : ℚ) * 2 ^ e * 10 ^ j < 2 ^ 52 := by
  have hgrid : (0 : ℚ) < 10 ^ k := by positivity
  have hone : (1 : ℚ) ≤ n := by exact_mod_cast hpos
  have hmost : (n : ℚ) ≤ 10 ^ 15 - 1 := by
    have hle : ((n + 1 : Nat) : ℚ) ≤ ((10 ^ 15 : Nat) : ℚ) := by exact_mod_cast hn
    push_cast at hle
    linarith
  have hleast := le_of_few hpos hk
  rcases close_of_roundsTo hd h hleast with ⟨hnormal, hlow, hhigh⟩
  rw [le_div_iff₀ hgrid] at hlow
  rw [div_le_iff₀ hgrid] at hhigh
  rcases leadingExponent_spec hd with ⟨hbase, hnext⟩
  generalize leadingExponent (.ofBinary m e) = leading at *
  have hvalue : (m : ℚ) * 2 ^ e * 10 ^ k < 10 ^ 15 := by linarith
  have hvalue' : (1 : ℚ) / 10 < m * 2 ^ e * 10 ^ k := by linarith
  have hscaled : ∀ t : Int, (10 : ℚ) ^ t * 10 ^ k = 10 ^ (t + k) := fun t => by
    rw [zpow_add₀ (by norm_num), zpow_natCast]
  have hupper : leading + k < 15 := by
    have hless : (10 : ℚ) ^ (leading + k) < 10 ^ ((15 : Nat) : Int) := by
      rw [← hscaled, zpow_natCast]
      exact lt_of_le_of_lt (mul_le_mul_of_nonneg_right hbase (le_of_lt hgrid)) hvalue
    exact (zpow_lt_zpow_iff_right₀ (by norm_num)).mp hless
  have hlower : -1 < leading + 1 + k := by
    have hless : (10 : ℚ) ^ (-1 : Int) < 10 ^ (leading + 1 + k) := by
      rw [← hscaled, zpow_neg_one, ← one_div]
      exact lt_trans hvalue' (mul_lt_mul_of_pos_right hnext hgrid)
    exact (zpow_lt_zpow_iff_right₀ (by norm_num)).mp hless
  refine ⟨hnormal, ?_⟩
  by_cases hjust : 0 ≤ leading + k
  · exact ⟨(leading + k).toNat, k, n, by omega, by omega, by omega, rfl, by linarith⟩
  · refine ⟨0, k + 1, 10 * n, by omega, by omega, by omega, ?_, ?_⟩
    · rw [pow_succ, Nat.cast_mul, Nat.cast_ofNat, mul_comm, mul_div_mul_right _ _ (by norm_num)]
    · have hbelow := mul_lt_mul_of_pos_right hnext hgrid
      have hzero : leading + 1 + (k : Int) = 0 := by omega
      rw [hscaled, hzero, zpow_zero] at hbelow
      rw [pow_succ, ← mul_assoc]
      linarith

theorem toRat_digits {n k m : Nat} {e : Int} (tie : Tie) (hpos : 0 < n) (hn : n < 10 ^ 15)
    (hk : k ≤ 21) (hd : IsDouble m e) (h : RoundsTo (n / 10 ^ k) m e) :
    (digits tie m e).toRat = n / 10 ^ k ∧ -22 ≤ (digits tie m e).exponent ∧
      (digits tie m e).coefficient < 2 ^ 53 := by
  rcases exists_grid hpos hn hk hd h with ⟨hnormal, i, j, a, hi, hj, hgrid, ha, hfine⟩
  rw [← ha] at h ⊢
  have hpower : ∀ b : ℚ, b / 10 ^ j = b * 10 ^ (-(j : Int)) := fun b => by
    rw [zpow_neg, zpow_natCast, div_eq_mul_inv]
  have hon : RoundsTo (a * 10 ^ (leadingExponent (.ofBinary m e) - (i : Int))) m e := by
    rwa [hgrid, ← hpower]
  rcases digits_spec tie hd hi hon with ⟨hrounds, hle, -⟩
  rw [hgrid] at hle
  generalize digits tie m e = d at *
  obtain ⟨s, hs⟩ : exists s : Nat, d.exponent = s - (j : Int) := ⟨(d.exponent + j).toNat, by omega⟩
  have hshown : d.toRat = (d.coefficient * 10 ^ s : Nat) / 10 ^ j := by
    rw [Digits.toRat, hs, hpower, sub_eq_add_neg, zpow_add₀ (by norm_num), zpow_natCast]
    push_cast
    ring
  rw [hshown] at hrounds ⊢
  have hsame := eq_of_roundsTo_grid hnormal hrounds h hfine
  refine ⟨by rw [hsame], by omega, ?_⟩
  have hgridpos : (0 : ℚ) < 10 ^ j := by positivity
  have hmantissa : (m : ℚ) + 1 / 2 ≤ 2 * m := by
    have hone : (1 : ℚ) ≤ m := by exact_mod_cast hd.pos
    linarith
  have hsmall : ((d.coefficient * 10 ^ s : Nat) : ℚ) < ((2 ^ 53 : Nat) : ℚ) := by
    have hhigh := hrounds.le.2
    rw [div_le_iff₀ hgridpos, mul_assoc] at hhigh
    have hdouble := mul_le_mul_of_nonneg_right hmantissa
      (show (0 : ℚ) ≤ 2 ^ e * 10 ^ j by positivity)
    push_cast at hhigh ⊢
    linarith
  have hten : 0 < 10 ^ s := Nat.pow_pos (by decide)
  exact lt_of_le_of_lt (Nat.le_mul_of_pos_right _ hten) (by exact_mod_cast hsmall)

end Shortest
end TransitSim
