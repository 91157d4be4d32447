import TransitSim.Proofs.Decimal.Arithmetic
import TransitSim.Proofs.Decimal.FewDigits
import TransitSim.Proofs.Json.Records

/-!
# Reading back doubles

A double is read back from its shortest digits by one multiplication or division. Both operands are
exact when the digits are few, and then the double comes back.
-/

namespace TransitSim
namespace Json

open Binary64 Decimal Shortest Float.Model.UnpackedFloat

/-!
# Operands
-/

theorem exists_nearestDouble {n : Nat} (hpos : 0 < n) (hlt : (n : ℚ) < overflow) :
    exists m e, IsDouble m e ∧ RoundsTo n m e ∧ nearestDouble n = double .positive m e := by
  have hone : (1 : ℚ) ≤ n := by exact_mod_cast hpos
  have hratio : (n : ℚ) / (1 : Nat) = n := by rw [Nat.cast_one, div_one]
  have hleast : (2 : ℚ) ^ leastExponent ≤ n / (1 : Nat) := by
    rw [hratio]
    exact le_trans (zpow_le_one_of_nonpos₀ (by norm_num) (by decide)) hone
  rcases exists_roundsTo Nat.one_pos hleast (by rwa [hratio]) with ⟨m, e, hd, hrounds⟩
  refine ⟨m, e, hd, by rwa [← hratio], ofRatio_of_roundsTo hpos Nat.one_pos hd hrounds⟩

theorem exists_exact {a b : Nat} (hpos : 0 < a) (hlt : a < 2 ^ 53) (hb : b ≤ 900) :
    exists m e, IsDouble m e ∧ (m : ℚ) * 2 ^ e = (a * 2 ^ b : Nat) ∧
      nearestDouble (a * 2 ^ b) = double .positive m e := by
  have hlog : a.log2 < 53 := (Nat.log2_lt (Nat.ne_of_gt hpos)).mpr hlt
  have hleast : leastExponent = -1074 := rfl
  have hlow : 2 ^ 52 ≤ a * 2 ^ (52 - a.log2) := by
    calc 2 ^ 52 = 2 ^ a.log2 * 2 ^ (52 - a.log2) := by rw [← Nat.pow_add]; congr 1; omega
      _ ≤ a * 2 ^ (52 - a.log2) := Nat.mul_le_mul_right _ (Nat.log2_self_le (Nat.ne_of_gt hpos))
  have hhigh : a * 2 ^ (52 - a.log2) < 2 ^ 53 := by
    calc a * 2 ^ (52 - a.log2) < 2 ^ (a.log2 + 1) * 2 ^ (52 - a.log2) :=
          Nat.mul_lt_mul_of_pos_right Nat.lt_log2_self (Nat.pow_pos (by decide))
      _ = 2 ^ 53 := by rw [← Nat.pow_add]; congr 1; omega
  have hd : IsDouble (a * 2 ^ (52 - a.log2)) (b - (52 - a.log2 : Nat)) :=
    ⟨by omega, hhigh, by omega, by omega, Or.inl hlow⟩
  have hvalue : ((a * 2 ^ (52 - a.log2) : Nat) : ℚ) * 2 ^ ((b : Int) - (52 - a.log2 : Nat)) =
      (a * 2 ^ b : Nat) := by
    push_cast
    rw [mul_assoc, ← zpow_natCast, ← zpow_add₀ (by norm_num), ← zpow_natCast]
    congr 2
    omega
  refine ⟨_, _, hd, hvalue, ?_⟩
  apply ofRatio_of_roundsTo (Nat.mul_pos hpos (Nat.pow_pos (by decide))) Nat.one_pos hd
  rw [Nat.cast_one, div_one, ← hvalue]
  exact roundsTo_self _ _

theorem exists_powerOfTen {k : Nat} (hk : k ≤ 22) :
    exists m e, IsDouble m e ∧ (m : ℚ) * 2 ^ e = 10 ^ k ∧ powerOfTen k = double .positive m e := by
  have hsplit : (10 : Nat) ^ k = 5 ^ k * 2 ^ k := by rw [← Nat.mul_pow]
  have hfive : 5 ^ k < 2 ^ 53 :=
    lt_of_le_of_lt (Nat.pow_le_pow_right (by decide) hk) (by decide)
  rcases exists_exact (Nat.pow_pos (by decide)) hfive (b := k) (by omega) with
    ⟨m, e, hd, hvalue, heq⟩
  refine ⟨m, e, hd, ?_, ?_⟩
  · rw [hvalue, ← hsplit]
    push_cast
    rfl
  · rw [powerOfTen, Nat.pow_eq, hsplit, heq]

theorem scale?_of_exact {a b k m : Nat} {e : Int} (hpos : 0 < a) (hlt : a < 2 ^ 53) (hb : b ≤ 900)
    (hk : 0 < k) (hk' : k ≤ 22) (hd : IsDouble m e)
    (h : RoundsTo ((a * 2 ^ b : Nat) / 10 ^ k) m e) :
    scale? (nearestDouble (a * 2 ^ b)) (-(k : Int)) = some (double .positive m e) := by
  rcases exists_exact hpos hlt hb with ⟨v, f, hv, hvalue, heq⟩
  rcases exists_powerOfTen hk' with ⟨p, g, hp, hpower, heq'⟩
  have hsmall : k ≤ greatestPower := le_trans hk' (by decide)
  rw [← hvalue, ← hpower] at h
  rw [scale?, Int.natAbs_neg, Int.natAbs_natCast, if_neg (by omega), if_pos hsmall, heq, heq',
    div_double .positive .positive hv hp hd h]
  rfl

/-!
# Decimals of few digits
-/

/-- Whether a number is read from a decimal of at most fifteen digits, none of which stands more
than twenty-one places behind the point. -/
def HasFewDigits (x : Float) : Prop :=
  exists n k : Nat, n < 10 ^ 15 ∧ k ≤ 21 ∧ x = ofRatio false n (10 ^ k)

theorem reread?_double {m : Nat} {e : Int} (hd : IsDouble m e) :
    reread? (double .positive m e) =
      scale? (nearestDouble (written (digits .even m e)).1) (written (digits .even m e)).2 := by
  have hshown : shownDigits m e = digits .even m e := if_neg (Nat.ne_of_gt hd.pos)
  rw [reread?, exact_double hd, ← hshown]
  show (scale? _ _).map id = _
  rw [Option.map_id]
  rfl

theorem isPositional_of_lt {d : Digits} (hpos : 0 < d.coefficient) (hexponent : 0 ≤ d.exponent)
    (h : d.toRat < 10 ^ 15) : IsPositional d := by
  have hlength : 0 < (natDigits d.coefficient).length := Nat.length_toDigits_pos
  obtain ⟨s, hs⟩ := Int.eq_ofNat_of_zero_le hexponent
  have hdigits : 10 ^ ((natDigits d.coefficient).length - 1) ≤ d.coefficient := by
    by_contra hless
    rw [not_le] at hless
    rcases Nat.eq_zero_or_pos ((natDigits d.coefficient).length - 1) with hzero | hmore
    · rw [hzero, pow_zero] at hless
      omega
    · have hle := (Nat.length_toDigits_le_iff (by decide) hmore).mpr hless
      rw [natDigits] at hle hmore
      omega
  have hpower : 10 ^ ((natDigits d.coefficient).length - 1 + s) < 10 ^ 15 := by
    rw [Digits.toRat, hs, zpow_natCast] at h
    rw [Nat.pow_add]
    exact lt_of_le_of_lt (Nat.mul_le_mul_right _ hdigits) (by exact_mod_cast h)
  have hexponents := (Nat.pow_lt_pow_iff_right (by decide)).mp hpower
  rw [IsPositional, leading]
  omega

theorem scale?_written {d : Digits} {m : Nat} {e : Int} (hd : IsDouble m e)
    (hrounds : RoundsTo d.toRat m e) (hpos : 0 < d.coefficient) (hfits : d.coefficient < 2 ^ 53)
    (hleast : -22 ≤ d.exponent) (hupper : d.toRat < 10 ^ 15) :
    scale? (nearestDouble (written d).1) (written d).2 = some (double .positive m e) := by
  rw [written]
  split
  case isTrue hpositional =>
    obtain ⟨s, hs⟩ := Int.eq_ofNat_of_zero_le hpositional.2
    have hvalue : d.toRat = (d.coefficient * 10 ^ s : Nat) := by
      rw [Digits.toRat, hs, zpow_natCast]
      push_cast
      rfl
    have hsmall : d.coefficient * 10 ^ s < 10 ^ 15 := by
      rw [hvalue] at hupper
      exact_mod_cast hupper
    have hsplit : d.coefficient * 10 ^ (d.exponent.toNat + 1) =
        5 * (d.coefficient * 10 ^ s) * 2 ^ 1 := by
      rw [hs, Int.toNat_natCast, Nat.pow_succ]
      ring
    have htenth : ((5 * (d.coefficient * 10 ^ s) * 2 ^ 1 : Nat) : ℚ) / 10 ^ 1 = d.toRat := by
      rw [hvalue]
      push_cast
      ring
    have hpos' : 0 < d.coefficient * 10 ^ s := Nat.mul_pos hpos (Nat.pow_pos (by decide))
    rw [hsplit]
    exact scale?_of_exact (by omega) (by omega) (by decide) Nat.one_pos (by decide) hd
      (by rwa [htenth])
  case isFalse hother =>
    have hneg : d.exponent < 0 := by
      by_contra hexponent
      rw [not_lt] at hexponent
      exact hother ⟨isPositional_of_lt hpos hexponent hupper, hexponent⟩
    obtain ⟨j, hj⟩ : exists j : Nat, d.exponent = -(j : Int) := ⟨(-d.exponent).toNat, by omega⟩
    have hvalue : ((d.coefficient * 2 ^ 0 : Nat) : ℚ) / 10 ^ j = d.toRat := by
      rw [Digits.toRat, hj, zpow_neg, zpow_natCast, div_eq_mul_inv, pow_zero, mul_one]
    have hscale := scale?_of_exact (k := j) hpos hfits (Nat.zero_le _) (by omega) (by omega) hd
      (by rwa [hvalue])
    rw [pow_zero, mul_one] at hscale
    rw [hj]
    exact hscale

theorem reread?_of_hasFewDigits {x : Float} (h : HasFewDigits x) : reread? x = some x := by
  rcases h with ⟨n, k, hn, hk, rfl⟩
  rcases Nat.eq_zero_or_pos n with rfl | hpos
  · rw [ofRatio, magnitudeBits, if_pos rfl]
    rfl
  have hden : 0 < 10 ^ k := Nat.pow_pos (by decide)
  have hcast : (n : ℚ) / (10 ^ k : Nat) = n / 10 ^ k := by push_cast; rfl
  have hupper : (n : ℚ) / 10 ^ k < 10 ^ 15 := by
    have hone : (1 : ℚ) ≤ 10 ^ k := one_le_pow₀ (by norm_num)
    exact lt_of_le_of_lt (div_le_self (by positivity) hone) (by exact_mod_cast hn)
  have hlower : (2 : ℚ) ^ leastExponent ≤ n / 10 ^ k :=
    le_trans (zpow_le_zpow_right₀ (by norm_num) (by decide)) (le_of_few hpos hk)
  have hend : (10 : ℚ) ^ 15 < overflow := by
    have hunit : (1 : ℚ) ≤ 2 ^ (971 : Int) := one_le_zpow₀ (by norm_num) (by decide)
    rw [overflow]
    generalize (2 : ℚ) ^ (971 : Int) = unit at *
    linarith
  rcases exists_roundsTo hden (by rwa [hcast]) (by rw [hcast]; exact lt_trans hupper hend) with
    ⟨m, e, hd, hrounds⟩
  rw [ofRatio_of_roundsTo hpos hden hd hrounds, reread?_double hd]
  rw [hcast] at hrounds
  rcases toRat_digits .even hpos hn hk hd hrounds with ⟨hsame, hleast, hfits⟩
  rcases digits_of_isDouble .even hd with ⟨hback, hdigits, -⟩
  exact scale?_written hd hback hdigits hfits hleast (hsame ▸ hupper)

end Json
end TransitSim
