import TransitSim.Proofs.Decimal.Interval

/-!
# Rounding to a double

The unit of a number is the power of two at which it has a mantissa of 53 binary digits, or the
least one. Rounded to a multiple of its unit, a number gives the double to which it rounds. The unit
is unique, so that it does not matter how it has been found.
-/

namespace TransitSim
namespace Binary64

/-!
# The nearest whole number
-/

def IsNearest (r : Nat) (x : ℚ) : Prop :=
  Between (r % 2 == 0) (r - 1 / 2) (r + 1 / 2) x

theorem IsNearest.eq {r s : Nat} {x : ℚ} (hr : IsNearest r x) (hs : IsNearest s x) : r = s := by
  by_contra hne
  wlog hlt : r < s generalizing r s
  · exact this hs hr (Ne.symm hne) (by omega)
  have hle : ((r + 1 : Nat) : ℚ) ≤ s := by exact_mod_cast hlt
  push_cast at hle
  have hhigh := (Between.le hr).2
  have hlow := (Between.le hs).1
  have hhalf : x = r + 1 / 2 := by linarith
  have hnext : s = r + 1 := by
    have hcast : (s : ℚ) = ((r + 1 : Nat) : ℚ) := by
      push_cast
      linarith
    exact_mod_cast hcast
  subst hnext
  have hodd : r % 2 = 0 ∧ (r + 1) % 2 = 0 := by
    constructor
    · by_contra hodd
      rw [IsNearest, beq_false_of_ne hodd] at hr
      exact lt_irrefl _ (hhalf ▸ hr.2)
    · by_contra hodd
      rw [IsNearest, beq_false_of_ne hodd] at hs
      have hless := hs.1
      push_cast at hless
      linarith
  omega

theorem isNearest_below {whole : Nat} {part : ℚ} (hpos : 0 ≤ part) (hlt : part < 1 / 2) :
    IsNearest whole (whole + part) :=
  Between.of_lt (by linarith) (by linarith)

theorem isNearest_above {whole : Nat} {part : ℚ} (hgt : 1 / 2 < part) (hlt : part < 1) :
    IsNearest (whole + 1) (whole + part) := by
  apply Between.of_lt
  · push_cast
    linarith
  · push_cast
    linarith

theorem isNearest_half (whole : Nat) : IsNearest (whole + whole % 2) (whole + 1 / 2) := by
  have heven : (whole + whole % 2) % 2 = 0 := by omega
  rw [IsNearest, heven]
  rcases Nat.mod_two_eq_zero_or_one whole with hmod | hmod
  · rw [hmod]
    constructor
    · push_cast
      linarith
    · push_cast
      linarith
  · rw [hmod]
    constructor
    · push_cast
      linarith
    · push_cast
      linarith

theorem isNearest_roundHalfEven (num : Nat) {den : Nat} (hden : 0 < den) :
    IsNearest (roundHalfEven num den) (num / den) := by
  have hden' : (0 : ℚ) < den := by exact_mod_cast hden
  have hsum : (num : ℚ) = den * (num / den : Nat) + (num % den : Nat) := by
    exact_mod_cast (Nat.div_add_mod num den).symm
  have hsplit : (num : ℚ) / den = (num / den : Nat) + (num % den : Nat) / den := by
    rw [hsum, add_div, mul_div_cancel_left₀ _ (ne_of_gt hden')]
  have hrest : num % den < den := Nat.mod_lt num hden
  rw [hsplit, roundHalfEven]
  generalize num / den = whole
  generalize num % den = rest at *
  clear hsum hsplit
  have hpart : (0 : ℚ) ≤ rest / den := by positivity
  have hone : (rest : ℚ) / den < 1 := by
    rw [div_lt_one hden']
    exact_mod_cast hrest
  split
  case isTrue hsmall =>
    refine isNearest_below hpart ?_
    rw [div_lt_div_iff₀ hden' (by norm_num)]
    have hcast : ((2 * rest : Nat) : ℚ) < den := by exact_mod_cast hsmall
    push_cast at hcast
    linarith
  case isFalse hsmall =>
    split
    case isTrue hgreat =>
      refine isNearest_above ?_ hone
      rw [div_lt_div_iff₀ (by norm_num) hden']
      have hcast : (den : ℚ) < ((2 * rest : Nat) : ℚ) := by exact_mod_cast hgreat
      push_cast at hcast
      linarith
    case isFalse hgreat =>
      have hhalf : (rest : ℚ) / den = 1 / 2 := by
        have hcast : ((2 * rest : Nat) : ℚ) = den := by
          exact_mod_cast (by omega : 2 * rest = den)
        rw [div_eq_div_iff (ne_of_gt hden') (by norm_num)]
        push_cast at hcast
        linarith
      rw [hhalf]
      exact isNearest_half whole

/-!
# Units
-/

/-- Whether a power of two is the unit in which a number is rounded. -/
structure IsUnit (q : ℚ) (u : Int) : Prop where
  least : leastExponent ≤ u
  lt : q < 2 ^ 53 * 2 ^ u
  normal : u = leastExponent ∨ 2 ^ 52 * 2 ^ u ≤ q

theorem IsUnit.eq {q : ℚ} {u v : Int} (hu : IsUnit q u) (hv : IsUnit q v) : u = v := by
  by_contra hne
  wlog hlt : u < v generalizing u v
  · exact this hv hu (Ne.symm hne) (by omega)
  have hnormal : 2 ^ 52 * 2 ^ v ≤ q := by
    rcases hv.normal with hleast | hnormal
    · have hle := hu.least
      omega
    · exact hnormal
  have hdouble : (2 : ℚ) * 2 ^ u ≤ 2 ^ v := by
    rw [mul_comm, ← zpow_add_one₀ (by norm_num)]
    exact zpow_le_zpow_right₀ (by norm_num) (by omega)
  have hless := hu.lt
  linarith

theorem eq_of_roundsTo_above {q : ℚ} {u : Int} {r m : Nat} {e : Int} (hu : IsUnit q u)
    (hr : IsNearest r (q / 2 ^ u)) (hd : IsDouble m e) (h : RoundsTo q m e)
    (hbelow : e = leastExponent ∨ 2 ^ 52 * 2 ^ e ≤ q) : u = e ∧ r = m := by
  have hunit : (0 : ℚ) < 2 ^ e := by positivity
  have hmantissa : (m : ℚ) + 1 ≤ 2 ^ 53 := by exact_mod_cast hd.lt
  rcases Between.le h with ⟨-, hhigh⟩
  have htop : q < 2 ^ 53 * 2 ^ e :=
    lt_of_le_of_lt hhigh (mul_lt_mul_of_pos_right (by linarith) hunit)
  obtain rfl : u = e := hu.eq ⟨hd.least, htop, hbelow⟩
  refine ⟨rfl, hr.eq ?_⟩
  rcases gapBelow_cases m u with ⟨hgap, rfl, hleast⟩ | ⟨hgap, -⟩
  · have hnormal : 2 ^ 52 * 2 ^ u ≤ q := hbelow.resolve_left (by omega)
    constructor
    · rw [le_div_iff₀ hunit]
      push_cast
      linarith
    · rw [div_le_iff₀ hunit]
      exact hhigh
  · rw [RoundsTo, hgap] at h
    have hends : Between (m % 2 == 0) ((m - ((2 : Nat) : ℚ) / 4) * 2 ^ u / 2 ^ u)
        ((m + 1 / 2) * 2 ^ u / 2 ^ u) (q / 2 ^ u) := by
      rwa [Between.div_iff hunit, div_mul_cancel₀ _ (ne_of_gt hunit)]
    rw [mul_div_cancel_right₀ _ (ne_of_gt hunit),
      mul_div_cancel_right₀ _ (ne_of_gt hunit)] at hends
    have hhalf : ((2 : Nat) : ℚ) / 4 = 1 / 2 := by norm_num
    rwa [hhalf] at hends

theorem eq_of_roundsTo_below {q : ℚ} {u : Int} {r m : Nat} {e : Int} (hu : IsUnit q u)
    (hr : IsNearest r (q / 2 ^ u)) (hd : IsDouble m e) (h : RoundsTo q m e)
    (hleast : leastExponent < e) (hbelow : q < 2 ^ 52 * 2 ^ e) :
    u + 1 = e ∧ r = 2 ^ 53 ∧ m = 2 ^ 52 := by
  have hunit : (0 : ℚ) < 2 ^ e := by positivity
  rcases Between.le h with ⟨hlow, -⟩
  have hnormal : 2 ^ 52 ≤ m := hd.normal.resolve_right (ne_of_gt hleast)
  have hpower : m = 2 ^ 52 := by
    by_contra hne
    have hgap : gapBelow m e = 2 := if_neg fun hm => hne hm.1
    have hnext : ((2 ^ 52 + 1 : Nat) : ℚ) ≤ m := by
      exact_mod_cast (by omega : 2 ^ 52 + 1 ≤ m)
    rw [hgap] at hlow
    push_cast at hlow hnext
    have hless : (2 : ℚ) ^ 52 * 2 ^ e < (m - 2 / 4) * 2 ^ e :=
      mul_lt_mul_of_pos_right (by linarith) hunit
    linarith
  have hgap : gapBelow m e = 1 := if_pos ⟨hpower, hleast⟩
  have htwice : (2 : ℚ) ^ e = 2 * 2 ^ (e - 1) := by
    rw [mul_comm, ← zpow_add_one₀ (by norm_num), Int.sub_add_cancel]
  have hbefore : (0 : ℚ) < 2 ^ (e - 1) := by positivity
  rw [hgap, hpower, htwice] at hlow
  push_cast at hlow
  rw [htwice] at hbelow
  obtain rfl : u = e - 1 := hu.eq ⟨by omega, by linarith, Or.inr (by linarith)⟩
  refine ⟨by omega, hr.eq ?_, hpower⟩
  constructor
  · rw [le_div_iff₀ hbefore]
    push_cast
    linarith
  · rw [div_le_iff₀ hbefore]
    push_cast
    linarith

theorem eq_of_roundsTo {q : ℚ} {u : Int} {r m : Nat} {e : Int} (hu : IsUnit q u)
    (hr : IsNearest r (q / 2 ^ u)) (hd : IsDouble m e) (h : RoundsTo q m e) :
    (u = e ∧ r = m) ∨ (u + 1 = e ∧ r = 2 ^ 53 ∧ m = 2 ^ 52) := by
  by_cases hbelow : e = leastExponent ∨ 2 ^ 52 * 2 ^ e ≤ q
  · exact Or.inl (eq_of_roundsTo_above hu hr hd h hbelow)
  · rw [not_or, not_le] at hbelow
    have hleast : leastExponent < e := lt_of_le_of_ne hd.least (Ne.symm hbelow.1)
    exact Or.inr (eq_of_roundsTo_below hu hr hd h hleast hbelow.2)

theorem roundsTo_of_isNearest {q : ℚ} {u : Int} {r : Nat} (hu : IsUnit q u)
    (hr : IsNearest r (q / 2 ^ u)) :
    (r < 2 ^ 53 ∧ RoundsTo q r u ∧ (2 ^ 52 ≤ r ∨ u = leastExponent)) ∨
      (r = 2 ^ 53 ∧ RoundsTo q (2 ^ 52) (u + 1)) := by
  have hunit : (0 : ℚ) < 2 ^ u := by positivity
  have hx : q / 2 ^ u < 2 ^ 53 := (div_lt_iff₀ hunit).mpr hu.lt
  rcases Between.le hr with ⟨hlow, hhigh⟩
  have hle : r ≤ 2 ^ 53 := by
    have hless : (r : ℚ) < ((2 ^ 53 + 1 : Nat) : ℚ) := by
      push_cast
      linarith
    exact Nat.le_of_lt_succ (by exact_mod_cast hless)
  have hscaled : Between (r % 2 == 0) ((r - 1 / 2) * 2 ^ u) ((r + 1 / 2) * 2 ^ u) q := by
    rw [← div_mul_cancel₀ q (ne_of_gt hunit), ← Between.div_iff hunit,
      mul_div_cancel_right₀ _ (ne_of_gt hunit), mul_div_cancel_right₀ _ (ne_of_gt hunit)]
    exact hr
  rcases Nat.lt_or_eq_of_le hle with hlt | rfl
  · left
    refine ⟨hlt, ?_, ?_⟩
    · rcases gapBelow_cases r u with ⟨hgap, rfl, hleast⟩ | ⟨hgap, -⟩
      · have hnormal : 2 ^ 52 * 2 ^ u ≤ q := hu.normal.resolve_left (by omega)
        rw [RoundsTo, hgap]
        constructor
        · push_cast
          linarith
        · exact hscaled.le.2
      · have hhalf : ((2 : Nat) : ℚ) / 4 = 1 / 2 := by norm_num
        rw [RoundsTo, hgap, hhalf]
        exact hscaled
    · refine hu.normal.symm.imp_left fun hnormal => ?_
      have hx' : (2 : ℚ) ^ 52 ≤ q / 2 ^ u := (le_div_iff₀ hunit).mpr hnormal
      have hless : ((2 ^ 52 : Nat) : ℚ) < ((r + 1 : Nat) : ℚ) := by
        push_cast
        linarith
      exact Nat.le_of_lt_succ (by exact_mod_cast hless)
  · right
    have hgap : gapBelow (2 ^ 52) (u + 1) = 1 := if_pos ⟨rfl, by have := hu.least; omega⟩
    have htwice : (2 : ℚ) ^ (u + 1) = 2 * 2 ^ u := by rw [zpow_add_one₀ (by norm_num), mul_comm]
    have hless := hu.lt
    have hends := hscaled.le
    refine ⟨rfl, ?_⟩
    rw [RoundsTo, hgap, htwice]
    push_cast at hends ⊢
    constructor <;> linarith

theorem IsDouble.le_before {m n : Nat} {e f : Int} (hm : IsDouble m e) (hn : IsDouble n f)
    (h : (m : ℚ) * 2 ^ e < n * 2 ^ f) : (m : ℚ) * 2 ^ e ≤ (n - gapBelow n f / 2) * 2 ^ f := by
  have hunit : (0 : ℚ) < 2 ^ f := by positivity
  have hgap : (gapBelow n f : ℚ) ≤ 2 := by exact_mod_cast (gapBelow_pos n f).2
  rcases Int.lt_or_le e f with hless | hmore
  · have hhalf : (2 : ℚ) ^ e ≤ 2 ^ f / 2 := by
      rw [div_eq_mul_inv, ← zpow_sub_one₀ (by norm_num)]
      exact zpow_le_zpow_right₀ (by norm_num) (by omega)
    have hdigits : (m : ℚ) + 1 ≤ 2 ^ 53 := by exact_mod_cast hm.lt
    have hnormal : 2 ^ 52 ≤ n := hn.normal.resolve_right (by have := hm.least; omega)
    have hbound : (m : ℚ) * 2 ^ e ≤ (2 ^ 53 - 1) * (2 ^ f / 2) :=
      mul_le_mul (by linarith) hhalf (by positivity) (by norm_num)
    refine le_trans hbound ?_
    rcases gapBelow_cases n f with ⟨hone, hpower, -⟩ | ⟨htwo, hother⟩
    · rw [hone, hpower]
      push_cast
      linarith
    · have hmore : ((2 ^ 52 + 1 : Nat) : ℚ) ≤ n := by
        have hleast := hm.least
        exact_mod_cast (by omega : 2 ^ 52 + 1 ≤ n)
      rw [htwo]
      push_cast at hmore ⊢
      nlinarith
  · obtain ⟨j, hj⟩ : exists j : Nat, e = f + j := ⟨(e - f).toNat, by omega⟩
    have hshifted : (m : ℚ) * 2 ^ e = (m * 2 ^ j : Nat) * 2 ^ f := by
      rw [hj, zpow_add₀ (by norm_num), zpow_natCast]
      push_cast
      ring
    rw [hshifted] at h ⊢
    have hcount : m * 2 ^ j < n := by exact_mod_cast lt_of_mul_lt_mul_right h (le_of_lt hunit)
    have hstep : ((m * 2 ^ j + 1 : Nat) : ℚ) ≤ n := by exact_mod_cast hcount
    push_cast at hstep ⊢
    exact mul_le_mul_of_nonneg_right (by linarith) (le_of_lt hunit)

theorem RoundsTo.le_double {q : ℚ} {m n : Nat} {e f : Int} (hm : IsDouble m e) (hn : IsDouble n f)
    (h : RoundsTo q m e) (hq : q ≤ n * 2 ^ f) : (m : ℚ) * 2 ^ e ≤ n * 2 ^ f := by
  by_contra hless
  rw [not_le] at hless
  have hunit : (0 : ℚ) < 2 ^ e := by positivity
  have hgap : (0 : ℚ) < gapBelow m e := by exact_mod_cast (gapBelow_pos m e).1
  have hbefore := hn.le_before hm hless
  have hlow := h.le.1
  have hstep : ((m : ℚ) - gapBelow m e / 2) * 2 ^ e < (m - gapBelow m e / 4) * 2 ^ e :=
    mul_lt_mul_of_pos_right (by linarith) hunit
  linarith

/-!
# The unit that is found
-/

theorem scaleDown_spec (num : Nat) {den : Nat} (hden : 0 < den) (u : Int) :
    ((scaleDown num den u).1 : ℚ) / (scaleDown num den u).2 = num / den / 2 ^ u ∧
      0 < (scaleDown num den u).2 := by
  rw [scaleDown]
  split
  case isTrue hu =>
    obtain ⟨k, rfl⟩ := Int.eq_ofNat_of_zero_le hu
    refine ⟨?_, Nat.mul_pos hden (Nat.pow_pos (by decide))⟩
    simp [div_div]
  case isFalse hu =>
    obtain ⟨k, hk⟩ : exists k : Nat, u = -(k : Int) := ⟨(-u).toNat, by omega⟩
    subst hk
    refine ⟨?_, hden⟩
    simp [mul_div_right_comm]

theorem log2_bounds {n : Nat} (h : 0 < n) :
    (2 : ℚ) ^ (n.log2 : Int) ≤ n ∧ (n : ℚ) < 2 ^ ((n.log2 : Int) + 1) := by
  constructor
  · rw [zpow_natCast]
    exact_mod_cast Nat.log2_self_le (Nat.ne_of_gt h)
  · have hcast : ((n.log2 : Int) + 1) = ((n.log2 + 1 : Nat) : Int) := by push_cast; rfl
    rw [hcast, zpow_natCast]
    exact_mod_cast Nat.lt_log2_self

theorem log2_ratio_bounds {num den : Nat} (hnum : 0 < num) (hden : 0 < den) :
    (2 : ℚ) ^ ((num.log2 : Int) - den.log2 - 1) ≤ num / den ∧
      (num : ℚ) / den < 2 ^ ((num.log2 : Int) - den.log2 + 1) := by
  have hden' : (0 : ℚ) < den := by exact_mod_cast hden
  rcases log2_bounds hnum with ⟨hnumlow, hnumhigh⟩
  rcases log2_bounds hden with ⟨hdenlow, hdenhigh⟩
  constructor
  · rw [le_div_iff₀ hden']
    have hprod : (2 : ℚ) ^ ((num.log2 : Int) - den.log2 - 1) * den ≤
        2 ^ ((num.log2 : Int) - den.log2 - 1) * 2 ^ ((den.log2 : Int) + 1) :=
      mul_le_mul_of_nonneg_left (le_of_lt hdenhigh) (by positivity)
    rw [← zpow_add₀ (by norm_num)] at hprod
    have hexponent : (num.log2 : Int) - den.log2 - 1 + (den.log2 + 1) = num.log2 := by omega
    rw [hexponent] at hprod
    exact le_trans hprod hnumlow
  · rw [div_lt_iff₀ hden']
    have hprod : (2 : ℚ) ^ ((num.log2 : Int) - den.log2 + 1) * 2 ^ (den.log2 : Int) ≤
        2 ^ ((num.log2 : Int) - den.log2 + 1) * den :=
      mul_le_mul_of_nonneg_left hdenlow (by positivity)
    rw [← zpow_add₀ (by norm_num)] at hprod
    have hexponent : (num.log2 : Int) - den.log2 + 1 + den.log2 = num.log2 + 1 := by omega
    rw [hexponent] at hprod
    exact lt_of_lt_of_le hnumhigh hprod

theorem isUnit_unitExponent {num den : Nat} (hnum : 0 < num) (hden : 0 < den) :
    IsUnit (num / den) (unitExponent num den) := by
  rcases log2_ratio_bounds hnum hden with ⟨hlow, hhigh⟩
  have hguess : leastExponent ≤ max ((num.log2 : Int) - den.log2 - 53) leastExponent :=
    le_max_right ..
  have hguess' : (num.log2 : Int) - den.log2 - 53 ≤
      max ((num.log2 : Int) - den.log2 - 53) leastExponent := le_max_left ..
  have hcases : max ((num.log2 : Int) - den.log2 - 53) leastExponent = leastExponent ∨
      max ((num.log2 : Int) - den.log2 - 53) leastExponent = (num.log2 : Int) - den.log2 - 53 := by
    omega
  rw [unitExponent]
  generalize max ((num.log2 : Int) - den.log2 - 53) leastExponent = guess at *
  rcases scaleDown_spec num hden guess with ⟨hratio, hscaled⟩
  have hscaled' : (0 : ℚ) < (scaleDown num den guess).2 := by exact_mod_cast hscaled
  have hunit : (0 : ℚ) < 2 ^ guess := by positivity
  have hfits : (scaleDown num den guess).1 / (scaleDown num den guess).2 < 2 ^ 53 ↔
      (num : ℚ) / den < 2 ^ 53 * 2 ^ guess := by
    rw [Nat.div_lt_iff_lt_mul hscaled, ← div_lt_iff₀ hunit, ← hratio, div_lt_iff₀ hscaled']
    norm_cast
  dsimp only [Nat.pow_eq]
  split
  case isTrue hsmall =>
    refine ⟨hguess, hfits.mp hsmall, hcases.imp_right fun heq => ?_⟩
    rw [heq, ← zpow_natCast, ← zpow_add₀ (by norm_num)]
    have hexponent : ((52 : Nat) : Int) + ((num.log2 : Int) - den.log2 - 53) =
        (num.log2 : Int) - den.log2 - 1 := by
      omega
    rw [hexponent]
    exact hlow
  case isFalse hgreat =>
    have hover : (2 : ℚ) ^ 53 * 2 ^ guess ≤ num / den := not_lt.mp fun h => hgreat (hfits.mpr h)
    have htwice : (2 : ℚ) ^ (guess + 1) = 2 * 2 ^ guess := by
      rw [zpow_add_one₀ (by norm_num), mul_comm]
    refine ⟨by omega, lt_of_lt_of_le hhigh ?_, Or.inr (by linarith)⟩
    rw [← zpow_natCast, ← zpow_add₀ (by norm_num)]
    exact zpow_le_zpow_right₀ (by norm_num) (by omega)

/-- Where the doubles end: half a unit above the greatest one. -/
def overflow : ℚ := (2 ^ 53 - 1 / 2) * 2 ^ (971 : Int)

theorem IsDouble.lt_overflow {m : Nat} {e : Int} (h : IsDouble m e) :
    (m : ℚ) * 2 ^ e < overflow := by
  have hmantissa : ((m + 1 : Nat) : ℚ) ≤ ((2 ^ 53 : Nat) : ℚ) := by exact_mod_cast h.lt
  have hpower : (2 : ℚ) ^ e ≤ 2 ^ (971 : Int) := zpow_le_zpow_right₀ (by norm_num) h.greatest
  push_cast at hmantissa
  rw [overflow]
  exact mul_lt_mul (by linarith) hpower (by positivity) (by norm_num)

theorem exists_roundsTo_of_isNearest {q : ℚ} {u : Int} {r : Nat} (hu : IsUnit q u)
    (hr : IsNearest r (q / 2 ^ u)) (hpos : 0 < r) (hq : q < overflow) :
    exists m e, IsDouble m e ∧ RoundsTo q m e := by
  have hleast : leastExponent = -1074 := rfl
  have hulow := hu.least
  have hlow : u ≤ 971 := by
    by_contra hgt
    have hnormal := hu.normal.resolve_left (by omega)
    have hpower : (2 : ℚ) ^ (972 : Int) ≤ 2 ^ u := zpow_le_zpow_right₀ (by norm_num) (by omega)
    have htwice : (2 : ℚ) ^ (972 : Int) = 2 * 2 ^ (971 : Int) := by
      rw [mul_comm, ← zpow_add_one₀ (by norm_num)]
      norm_num
    have hunit : (0 : ℚ) < 2 ^ (971 : Int) := by positivity
    rw [htwice] at hpower
    rw [overflow] at hq
    clear htwice
    generalize (2 : ℚ) ^ (971 : Int) = unit at *
    generalize (2 : ℚ) ^ u = power at *
    linarith
  rcases roundsTo_of_isNearest hu hr with ⟨hlt, hrounds, hnormal⟩ | ⟨rfl, hrounds⟩
  · exact ⟨r, u, ⟨hpos, hlt, hulow, hlow, hnormal⟩, hrounds⟩
  · refine ⟨2 ^ 52, u + 1, ⟨by decide, by decide, by omega, ?_, Or.inl (le_refl _)⟩, hrounds⟩
    by_contra hgt
    obtain rfl : u = 971 := by omega
    have hend := hr.le.1
    rw [le_div_iff₀ (by positivity), Nat.cast_pow, Nat.cast_ofNat] at hend
    exact absurd hq (not_lt.mpr hend)

theorem exists_roundsTo {num den : Nat} (hden : 0 < den)
    (hlow : (2 : ℚ) ^ leastExponent ≤ num / den) (hhigh : (num : ℚ) / den < overflow) :
    exists m e, IsDouble m e ∧ RoundsTo (num / den) m e := by
  have hpositive : (0 : ℚ) < num / den := lt_of_lt_of_le (by positivity) hlow
  have hnum : 0 < num := by
    refine Nat.pos_of_ne_zero fun hzero => ?_
    rw [hzero, Nat.cast_zero, zero_div] at hpositive
    exact lt_irrefl _ hpositive
  have hu := isUnit_unitExponent hnum hden
  rcases scaleDown_spec num hden (unitExponent num den) with ⟨hratio, hscaled⟩
  have hr := isNearest_roundHalfEven (scaleDown num den (unitExponent num den)).1 hscaled
  rw [hratio] at hr
  refine exists_roundsTo_of_isNearest hu hr (Nat.pos_of_ne_zero fun hzero => ?_) hhigh
  have hunit : (0 : ℚ) < 2 ^ unitExponent num den := by positivity
  rw [hzero] at hr
  have hhalf := hr.le.2
  rw [div_le_iff₀ hunit] at hhalf
  rcases hu.normal with hleast | hnormal
  · rw [hleast] at hhalf hunit
    norm_num at hhalf
    linarith
  · norm_num at hhalf
    linarith

/-!
# The bits of the nearest double
-/

def bitsOf (m : Nat) (e : Int) : Nat :=
  (e - leastExponent).toNat * 2 ^ 52 + m

theorem bitsOf_lt {m : Nat} {e : Int} (h : IsDouble m e) : bitsOf m e < infinityBits := by
  have hinfinity : infinityBits = 2047 * 2 ^ 52 := rfl
  have hleast : leastExponent = -1074 := rfl
  have hlt := h.lt
  have hgreatest := h.greatest
  rw [bitsOf]
  have hle : (e - leastExponent).toNat ≤ 2045 := by omega
  omega

theorem magnitudeBits_of_roundsTo {num den m : Nat} {e : Int} (hnum : 0 < num) (hden : 0 < den)
    (hd : IsDouble m e) (h : RoundsTo (num / den) m e) : magnitudeBits num den = bitsOf m e := by
  have hu := isUnit_unitExponent hnum hden
  rcases scaleDown_spec num hden (unitExponent num den) with ⟨hratio, hscaled⟩
  have hr := isNearest_roundHalfEven (scaleDown num den (unitExponent num den)).1 hscaled
  rw [hratio] at hr
  have hleast := hu.least
  have hbits : magnitudeBits num den = min infinityBits
      (bitsOf (roundHalfEven (scaleDown num den (unitExponent num den)).1
        (scaleDown num den (unitExponent num den)).2) (unitExponent num den)) := by
    rw [magnitudeBits, if_neg (Nat.ne_of_gt hnum)]
    rfl
  have hsame : bitsOf (roundHalfEven (scaleDown num den (unitExponent num den)).1
      (scaleDown num den (unitExponent num den)).2) (unitExponent num den) = bitsOf m e := by
    rcases eq_of_roundsTo hu hr hd h with ⟨rfl, hm⟩ | ⟨rfl, hcarry, rfl⟩
    · rw [hm]
    · rw [hcarry, bitsOf, bitsOf]
      omega
  rw [hbits, hsame, Nat.min_eq_right (Nat.le_of_lt (bitsOf_lt hd))]

end Binary64
end TransitSim
