import TransitSim.Proofs.Decimal.Words

/-!
# Products and quotients of doubles

An operation on doubles finds the leading binary digits of its result and tells where the rest lies.
The result is then the double to which the exact one rounds.
-/

namespace TransitSim
namespace Binary64

open Float.Model Float.Model.UnpackedFloat

/-!
# What the digits leave out
-/

/-- Whether an accuracy tells where a part of a unit lies. -/
def Tells : Accuracy → ℚ → Prop
  | .exact, part => part = 0
  | .inexact .lt, part => 0 < part ∧ part < 1 / 2
  | .inexact .eq, part => part = 1 / 2
  | .inexact .gt, part => 1 / 2 < part ∧ part < 1

theorem Tells.bounds {a : Accuracy} {part : ℚ} (h : Tells a part) : 0 ≤ part ∧ part < 1 := by
  cases a with
  | exact =>
      rw [show part = 0 from h]
      norm_num
  | inexact side =>
      cases side with
      | lt => exact ⟨le_of_lt h.1, lt_trans h.2 (by norm_num)⟩
      | eq =>
          rw [show part = 1 / 2 from h]
          norm_num
      | gt => exact ⟨le_of_lt (lt_trans (by norm_num) h.1), h.2⟩

def IsMantissaOf (em : ExtendedMantissa) (x : ℚ) : Prop :=
  exists part, x = em.mantissa + part ∧ Tells em.accuracy part

theorem isMantissaOf_ofMantissaAndAccuracy (m : Nat) {a : Accuracy} {part : ℚ} (h : Tells a part) :
    IsMantissaOf (.ofMantissaAndAccuracy m a) (m + part) := by
  cases a with
  | exact => exact ⟨part, rfl, h⟩
  | inexact side => cases side <;> exact ⟨part, rfl, h⟩

theorem IsMantissaOf.shiftRightOne {em : ExtendedMantissa} {x : ℚ} (h : IsMantissaOf em x) :
    IsMantissaOf em.shiftRightOne (x / 2) := by
  rcases em with ⟨m, round, sticky⟩
  rcases h with ⟨part, rfl, htells⟩
  have hsplit : ((m : ℚ) + part) / 2 = (m / 2 : Nat) + ((m % 2 : Nat) + part) / 2 := by
    have hsum : (m : ℚ) = 2 * (m / 2 : Nat) + (m % 2 : Nat) := by
      exact_mod_cast (Nat.div_add_mod m 2).symm
    linarith
  refine ⟨((m % 2 : Nat) + part) / 2, hsplit, ?_⟩
  show Tells (ExtendedMantissa.accuracy ⟨m / 2, m % 2 != 0, round || sticky⟩) _
  -- the bit shifted out tells on which side of a half the part lies, the others whether it is there
  rcases Nat.mod_two_eq_zero_or_one m with hmod | hmod <;> rw [hmod]
  all_goals
    cases round <;> cases sticky <;>
      simp only [ExtendedMantissa.accuracy, Tells, bne_self_eq_false, Nat.reduceBNe, Bool.or_self,
        Bool.or_true, Bool.or_false] at htells ⊢
  all_goals push_cast
  all_goals first | linarith | constructor <;> linarith

theorem IsMantissaOf.shiftRight {em : ExtendedMantissa} {x : ℚ} (h : IsMantissaOf em x) (k : Nat) :
    IsMantissaOf (em >>> k) (x / 2 ^ k) := by
  induction k with
  | zero =>
      rw [pow_zero, div_one]
      exact h
  | succ k ih =>
      rw [pow_succ, ← div_div]
      exact ih.shiftRightOne

theorem IsMantissaOf.isNearest {em : ExtendedMantissa} {x : ℚ} (h : IsMantissaOf em x) :
    IsNearest em.roundedMantissa x := by
  rcases em with ⟨m, round, sticky⟩
  rcases h with ⟨part, rfl, htells⟩
  cases round <;> cases sticky
  case false.false =>
    rw [show part = 0 from htells, add_zero]
    show IsNearest m m
    exact Between.of_lt (by linarith) (by linarith)
  case false.true => exact isNearest_below (le_of_lt htells.1) htells.2
  case true.false =>
    rw [show part = 1 / 2 from htells]
    exact isNearest_half m
  case true.true => exact isNearest_above htells.1 htells.2

/-!
# Rounding what an operation has found
-/

theorem targetExponent_eq (m : Nat) (e : Int) :
    Format.binary64.targetExponent (totalExponent m e) =
      max ((m.log2 : Int) + 1 + e - 53) leastExponent := rfl

theorem shiftToTargetExponent_eq {m : Nat} {e t : Int} (a : Accuracy)
    (ht : Format.binary64.targetExponent (totalExponent m e) = t) :
    shiftToTargetExponent Format.binary64 m e a =
      (ExtendedMantissa.ofMantissaAndAccuracy m a >>> (t - e).toNat, e + (t - e).toNat) := by
  rw [shiftToTargetExponent, ht]
  rfl

theorem isUnit_targetExponent {m : Nat} {e : Int} {part : ℚ} (hpart : 0 ≤ part) (hlt : part < 1)
    (he : e ≤ Format.binary64.targetExponent (totalExponent m e)) :
    IsUnit ((m + part) * 2 ^ e) (Format.binary64.targetExponent (totalExponent m e)) := by
  have hunit : (0 : ℚ) < 2 ^ e := by positivity
  rw [targetExponent_eq] at he ⊢
  have hlower : (m.log2 : Int) + 1 + e - 53 ≤ max ((m.log2 : Int) + 1 + e - 53) leastExponent :=
    le_max_left ..
  have hleast : leastExponent ≤ max ((m.log2 : Int) + 1 + e - 53) leastExponent := le_max_right ..
  have hcases : max ((m.log2 : Int) + 1 + e - 53) leastExponent = leastExponent ∨
      max ((m.log2 : Int) + 1 + e - 53) leastExponent = (m.log2 : Int) + 1 + e - 53 := by
    omega
  generalize max ((m.log2 : Int) + 1 + e - 53) leastExponent = t at *
  refine ⟨hleast, ?_, hcases.imp_right fun heq => ?_⟩
  · have hnext : (m : ℚ) + part < 2 ^ ((m.log2 : Int) + 1) := by
      have hle : ((m + 1 : Nat) : ℚ) ≤ ((2 ^ (m.log2 + 1) : Nat) : ℚ) := by
        exact_mod_cast Nat.lt_log2_self
      have hcast : ((m.log2 : Int) + 1) = ((m.log2 + 1 : Nat) : Int) := by push_cast; rfl
      rw [hcast, zpow_natCast]
      push_cast at hle
      linarith
    calc ((m : ℚ) + part) * 2 ^ e < 2 ^ ((m.log2 : Int) + 1) * 2 ^ e :=
          mul_lt_mul_of_pos_right hnext hunit
      _ = 2 ^ ((m.log2 : Int) + 1 + e) := (zpow_add₀ (by norm_num) _ _).symm
      _ ≤ 2 ^ (((53 : Nat) : Int) + t) := zpow_le_zpow_right₀ (by norm_num) (by omega)
      _ = 2 ^ 53 * 2 ^ t := by rw [zpow_add₀ (by norm_num), zpow_natCast]
  · have hm : 0 < m := by
      by_contra hzero
      obtain rfl : m = 0 := by omega
      have hlog : Nat.log2 0 = 0 := rfl
      omega
    have hbase : (2 : ℚ) ^ (m.log2 : Int) ≤ m + part := by
      have hle := (log2_bounds hm).1
      linarith
    calc (2 : ℚ) ^ 52 * 2 ^ t = 2 ^ (((52 : Nat) : Int) + t) := by
          rw [zpow_add₀ (by norm_num), zpow_natCast]
      _ = 2 ^ ((m.log2 : Int) + e) := by
          rw [heq]
          congr 1
          omega
      _ = 2 ^ (m.log2 : Int) * 2 ^ e := zpow_add₀ (by norm_num) _ _
      _ ≤ (m + part) * 2 ^ e := mul_le_mul_of_nonneg_right hbase (le_of_lt hunit)

theorem shiftToTargetExponent_of_lt {m : Nat} {e : Int} (hm : m < 2 ^ 53) (he : leastExponent ≤ e) :
    (shiftToTargetExponent Format.binary64 m e .exact).1.mantissa = m ∧
      (shiftToTargetExponent Format.binary64 m e .exact).2 = e := by
  have hlog : m.log2 < 53 := by
    rcases Nat.eq_zero_or_pos m with rfl | hpos
    · decide
    · exact (Nat.log2_lt (Nat.ne_of_gt hpos)).mpr hm
  have hnone : (Format.binary64.targetExponent (totalExponent m e) - e).toNat = 0 := by
    rw [targetExponent_eq]
    omega
  rw [shiftToTargetExponent_eq .exact rfl, hnone]
  exact ⟨rfl, Int.add_zero e⟩

theorem shiftToTargetExponent_carry {e : Int} (he : leastExponent ≤ e) :
    (shiftToTargetExponent Format.binary64 (2 ^ 53) e .exact).1.mantissa = 2 ^ 52 ∧
      (shiftToTargetExponent Format.binary64 (2 ^ 53) e .exact).2 = e + 1 := by
  have hlog : (2 ^ 53 : Nat).log2 = 53 := Nat.log2_two_pow
  have hone : (Format.binary64.targetExponent (totalExponent (2 ^ 53) e) - e).toNat = 1 := by
    rw [targetExponent_eq, hlog]
    omega
  rw [shiftToTargetExponent_eq .exact rfl, hone]
  exact ⟨rfl, rfl⟩

/-- What an operation has found is rounded to the nearest multiple of the unit aimed at. -/
theorem isNearest_roundedMantissa {m : Nat} {e t : Int} {a : Accuracy} {part : ℚ}
    (ha : Tells a part) (he : e ≤ t) :
    IsNearest (ExtendedMantissa.ofMantissaAndAccuracy m a >>> (t - e).toNat).roundedMantissa
      ((m + part) * 2 ^ e / 2 ^ t) := by
  have hshift : (m + part) * 2 ^ e / 2 ^ t = (m + part) / 2 ^ (t - e).toNat := by
    have hexponent : ((t - e).toNat : Int) = t - e := by omega
    rw [← zpow_natCast, hexponent, zpow_sub₀ (by norm_num), div_div_eq_mul_div]
  rw [hshift]
  exact ((isMantissaOf_ofMantissaAndAccuracy m ha).shiftRight (t - e).toNat).isNearest

theorem roundWithAccuracy_eq (s : Sign) {m n : Nat} {e f : Int} {a : Accuracy} {part : ℚ}
    (ha : Tells a part) (he : e ≤ Format.binary64.targetExponent (totalExponent m e))
    (hd : IsDouble n f) (h : RoundsTo ((m + part) * 2 ^ e) n f) :
    roundWithAccuracy Format.binary64 s m e a = .finite s n f hd.pos := by
  rcases ha.bounds with ⟨hpart, hlt⟩
  have hu := isUnit_targetExponent hpart hlt he
  have hleast := hu.least
  generalize ht : Format.binary64.targetExponent (totalExponent m e) = t at *
  have hfound := isNearest_roundedMantissa (m := m) ha he
  have hexponent : e + ((t - e).toNat : Int) = t := by omega
  rw [roundWithAccuracy, shiftToTargetExponent_eq a ht]
  dsimp only
  rw [hexponent]
  generalize (ExtendedMantissa.ofMantissaAndAccuracy m a >>> (t - e).toNat).roundedMantissa = r at *
  have hsame : (shiftToTargetExponent Format.binary64 r t .exact).1.mantissa = n ∧
      (shiftToTargetExponent Format.binary64 r t .exact).2 = f := by
    rcases eq_of_roundsTo hu hfound hd h with ⟨rfl, rfl⟩ | ⟨rfl, rfl, rfl⟩
    · exact shiftToTargetExponent_of_lt hd.lt hleast
    · exact shiftToTargetExponent_carry hleast
  rw [dif_neg (by rw [hsame.1]; exact Nat.ne_of_gt hd.pos)]
  congr 1
  · exact hsame.1
  · exact hsame.2

theorem roundWithAccuracy_cases (s : Sign) {m : Nat} {e : Int} {a : Accuracy} {part : ℚ}
    (ha : Tells a part) (he : e ≤ Format.binary64.targetExponent (totalExponent m e))
    (hq : (m + part) * 2 ^ e < overflow) :
    roundWithAccuracy Format.binary64 s m e a = .zero s ∨
      exists n f, exists hd : IsDouble n f, RoundsTo ((m + part) * 2 ^ e) n f ∧
        roundWithAccuracy Format.binary64 s m e a = .finite s n f hd.pos := by
  rcases ha.bounds with ⟨hpart, hlt⟩
  have hu := isUnit_targetExponent hpart hlt he
  have hfound := isNearest_roundedMantissa (m := m) ha he
  have hleast := hu.least
  generalize ht : Format.binary64.targetExponent (totalExponent m e) = t at *
  rcases Nat.eq_zero_or_pos (ExtendedMantissa.ofMantissaAndAccuracy m a >>>
    (t - e).toNat).roundedMantissa with hzero | hpos
  · left
    have hexponent : e + ((t - e).toNat : Int) = t := by omega
    rw [roundWithAccuracy, shiftToTargetExponent_eq a ht]
    dsimp only
    rw [hexponent, hzero, dif_pos (shiftToTargetExponent_of_lt (by decide) hleast).1]
  · right
    rcases exists_roundsTo_of_isNearest hu hfound hpos hq with ⟨n, f, hd, hrounds⟩
    exact ⟨n, f, hd, hrounds, roundWithAccuracy_eq s ha (by rwa [ht]) hd hrounds⟩

/-!
# The operands
-/

theorem two_pow_le_mul {m n : Nat} {e f : Int} (hm : IsDouble m e) (hn : IsDouble n f) :
    2 ^ 52 ≤ m * n ∨ e + f ≤ leastExponent := by
  rcases hm.normal with hnormal | hleast
  · exact Or.inl (le_trans hnormal (Nat.le_mul_of_pos_right m hn.pos))
  · rcases hn.normal with hnormal | hleast'
    · exact Or.inl (le_trans hnormal (Nat.le_mul_of_pos_left n hm.pos))
    · refine Or.inr ?_
      have hvalue : leastExponent = -1074 := rfl
      omega

theorem le_log2 {m : Nat} (h : 2 ^ 52 ≤ m) : 52 ≤ m.log2 := by
  have hpos : m ≠ 0 := Nat.ne_of_gt (lt_of_lt_of_le (by decide) h)
  exact (Nat.le_log2 hpos).mpr h

theorem ofModel_pack {s : Sign} {m : Nat} {e : Int} (h : IsDouble m e) :
    Float.ofModel (.pack (.finite s m e h.pos)) = double s m e := by
  rw [← toModel_double h]

/-!
# Quotients
-/

theorem tells_accuracyOfFraction {num den : Nat} (h : num < den) :
    Tells (accuracyOfFraction num den) (num / den) := by
  have hden : (0 : ℚ) < den := by exact_mod_cast (Nat.zero_lt_of_lt h)
  rw [accuracyOfFraction]
  split
  case isTrue hzero =>
    rw [hzero, Nat.cast_zero, zero_div]
    rfl
  case isFalse hzero =>
    rcases lt_trichotomy (2 * num) den with hlt | heq | hgt
    · rw [compare_lt_iff_lt.mpr hlt]
      have hcast : ((2 * num : Nat) : ℚ) < den := by exact_mod_cast hlt
      have hpos : (0 : ℚ) < num := by exact_mod_cast Nat.pos_of_ne_zero hzero
      push_cast at hcast
      exact ⟨by positivity, by rw [div_lt_div_iff₀ hden (by norm_num)]; linarith⟩
    · rw [compare_eq_iff_eq.mpr heq]
      have hcast : ((2 * num : Nat) : ℚ) = den := by exact_mod_cast heq
      push_cast at hcast
      show (num : ℚ) / den = 1 / 2
      rw [div_eq_div_iff (ne_of_gt hden) (by norm_num)]
      linarith
    · rw [compare_gt_iff_gt.mpr hgt]
      have hcast : (den : ℚ) < ((2 * num : Nat) : ℚ) := by exact_mod_cast hgt
      have hlt : (num : ℚ) < den := by exact_mod_cast h
      push_cast at hcast
      exact ⟨by rw [div_lt_div_iff₀ (by norm_num) hden]; linarith, (div_lt_one hden).mpr hlt⟩

theorem two_pow_le_shifted_div {m n k : Nat} (hm : 0 < m) (hn : 0 < n)
    (h : (53 : Int) ≤ (m.log2 : Int) + k - n.log2) : 2 ^ 52 ≤ m * 2 ^ k / n := by
  rw [Nat.le_div_iff_mul_le hn]
  have hlow : 2 ^ m.log2 ≤ m := Nat.log2_self_le (Nat.ne_of_gt hm)
  have hhigh : n < 2 ^ (n.log2 + 1) := Nat.lt_log2_self
  calc 2 ^ 52 * n ≤ 2 ^ 52 * 2 ^ (n.log2 + 1) := Nat.mul_le_mul_left _ (Nat.le_of_lt hhigh)
    _ = 2 ^ (52 + (n.log2 + 1)) := (Nat.pow_add 2 52 _).symm
    _ ≤ 2 ^ (m.log2 + k) := Nat.pow_le_pow_right (by decide) (by omega)
    _ = 2 ^ m.log2 * 2 ^ k := Nat.pow_add 2 _ _
    _ ≤ m * 2 ^ k := Nat.mul_le_mul_right _ hlow

theorem exists_div (s t : Sign) {m n : Nat} {e f : Int} (hm : IsDouble m e) (hn : IsDouble n f) :
    exists (k : Nat) (u : Int) (a : Accuracy) (part : ℚ), Tells a part ∧
      u ≤ Format.binary64.targetExponent (totalExponent k u) ∧
        (k + part) * 2 ^ u = (m * 2 ^ e) / (n * 2 ^ f) ∧
          double s m e / double t n f =
            .ofModel (.pack (roundWithAccuracy Format.binary64 (s / t) k u a)) := by
  have hn' : (0 : ℚ) < n := by exact_mod_cast hn.pos
  have htarget : Format.binary64.targetExponent (totalExponent m e - totalExponent n f) =
      max ((m.log2 : Int) + 1 + e - ((n.log2 : Int) + 1 + f) - 53) leastExponent := rfl
  have hdiv : double s m e / double t n f =
      .ofModel (.pack (roundWithAccuracy Format.binary64 (s / t)
        (divCore Format.binary64 m e n f).1 (divCore Format.binary64 m e n f).2.1
        (divCore Format.binary64 m e n f).2.2)) := by
    show Float.ofModel (.pack (UnpackedFloat.div Format.binary64 (double s m e).toModel.unpack
      (double t n f).toModel.unpack)) = _
    rw [unpack_double hm, unpack_double hn]
    rfl
  rw [divCore] at hdiv
  dsimp only at hdiv
  rw [Nat.shiftLeft_eq] at hdiv
  generalize hu : min (e - f) (Format.binary64.targetExponent
    (totalExponent m e - totalExponent n f)) = u at *
  have hue : u ≤ e - f := by rw [← hu]; exact min_le_left ..
  have huleast : u ≤ leastExponent ∨
      u ≤ (m.log2 : Int) + 1 + e - ((n.log2 : Int) + 1 + f) - 53 := by
    have hle := min_le_right (e - f) (Format.binary64.targetExponent
      (totalExponent m e - totalExponent n f))
    rw [hu, htarget] at hle
    omega
  generalize hshifted : (e - f - u).toNat = j at *
  have hj : (j : Int) = e - f - u := by omega
  refine ⟨m * 2 ^ j / n, u, _, (m * 2 ^ j % n : Nat) / n,
    tells_accuracyOfFraction (Nat.mod_lt _ hn.pos), ?_, ?_, hdiv⟩
  · rw [targetExponent_eq]
    rcases huleast with hleast | hdigits
    · exact le_trans hleast (le_max_right ..)
    · have hlog := le_log2 (two_pow_le_shifted_div hm.pos hn.pos (k := j) (by omega))
      omega
  · have hsum : ((m * 2 ^ j / n : Nat) : ℚ) + (m * 2 ^ j % n : Nat) / n =
        (m * 2 ^ j : Nat) / n := by
      rw [eq_div_iff (ne_of_gt hn'), add_mul, div_mul_cancel₀ _ (ne_of_gt hn'), mul_comm]
      exact_mod_cast Nat.div_add_mod (m * 2 ^ j) n
    have hpower : (2 : ℚ) ^ j * 2 ^ u = 2 ^ e / 2 ^ f := by
      rw [← zpow_natCast, hj, ← zpow_add₀ (by norm_num), ← zpow_sub₀ (by norm_num)]
      congr 1
      omega
    rw [hsum, Nat.cast_mul, Nat.cast_pow, Nat.cast_ofNat, div_mul_eq_mul_div, mul_assoc, hpower,
      mul_div_assoc', div_div, mul_comm (n : ℚ)]

/-- The quotient of two doubles is the double to which their exact quotient rounds. -/
theorem div_double {m n k : Nat} {e f g : Int} (s t : Sign) (hm : IsDouble m e) (hn : IsDouble n f)
    (hk : IsDouble k g) (h : RoundsTo ((m * 2 ^ e) / (n * 2 ^ f)) k g) :
    double s m e / double t n f = double (s / t) k g := by
  rcases exists_div s t hm hn with ⟨found, u, a, part, ha, hu, hvalue, hdiv⟩
  rw [← hvalue] at h
  rw [hdiv, roundWithAccuracy_eq (s / t) ha hu hk h, ofModel_pack hk]

/-!
# Numbers from zero on
-/

def IsFromZero (x : Float) : Prop :=
  x = 0 ∨ exists m e, IsDouble m e ∧ x = double .positive m e

theorem IsFromZero.isFinite {x : Float} (h : IsFromZero x) : x.isFinite = true := by
  rcases h with rfl | ⟨m, e, hd, rfl⟩
  · rfl
  · show (double .positive m e).toModel.unpack.isFinite = true
    rw [unpack_double hd]
    rfl

theorem IsFromZero.le {x : Float} (h : IsFromZero x) : 0 ≤ x := by
  rcases h with rfl | ⟨m, e, hd, rfl⟩
  · decide
  · show decide (((0 : Float).toModel.unpack.compare (double .positive m e).toModel.unpack).any
      (·.isLE) = true) = true
    rw [unpack_double hd]
    rfl

theorem isFromZero_mul {m n : Nat} {e f : Int} (hm : IsDouble m e) (hn : IsDouble n f)
    (h : ((m : ℚ) * 2 ^ e) * (n * 2 ^ f) < overflow) :
    IsFromZero (double .positive m e * double .positive n f) := by
  have hvalue : ((m : ℚ) * 2 ^ e) * (n * 2 ^ f) = ((m * n : Nat) + 0) * 2 ^ (e + f) := by
    rw [zpow_add₀ (by norm_num)]
    push_cast
    ring
  have hshift : e + f ≤ Format.binary64.targetExponent (totalExponent (m * n) (e + f)) := by
    rw [targetExponent_eq]
    rcases two_pow_le_mul hm hn with hnormal | hleast
    · have hlog := le_log2 hnormal
      omega
    · exact le_trans hleast (le_max_right ..)
  have hmul : double .positive m e * double .positive n f = .ofModel (.pack
      (roundWithAccuracy Format.binary64 .positive (m * n) (e + f) .exact)) := by
    show Float.ofModel (.pack (UnpackedFloat.mul Format.binary64
      (double .positive m e).toModel.unpack (double .positive n f).toModel.unpack)) = _
    rw [unpack_double hm, unpack_double hn]
    rfl
  rw [hvalue] at h
  rw [hmul]
  rcases roundWithAccuracy_cases .positive (a := .exact) rfl hshift h with hzero |
    ⟨k, g, hk, -, hfinite⟩
  · left
    rw [hzero]
    rfl
  · right
    exact ⟨k, g, hk, by rw [hfinite, ofModel_pack hk]⟩

theorem IsFromZero.div {x : Float} (h : IsFromZero x) {n : Nat} {f : Int} (hn : IsDouble n f)
    (hone : (1 : ℚ) ≤ n * 2 ^ f) : IsFromZero (x / double .positive n f) := by
  rcases h with rfl | ⟨m, e, hm, rfl⟩
  · left
    show Float.ofModel (.pack (UnpackedFloat.div Format.binary64 (.zero .positive)
      (double .positive n f).toModel.unpack)) = _
    rw [unpack_double hn]
    rfl
  · rcases exists_div .positive .positive hm hn with ⟨found, u, a, part, ha, hu, hvalue, hdiv⟩
    have hless : (found + part) * 2 ^ u < overflow := by
      rw [hvalue]
      exact lt_of_le_of_lt (div_le_self (by positivity) hone) hm.lt_overflow
    rcases roundWithAccuracy_cases (.positive / .positive) ha hu hless with hzero |
      ⟨k, g, hk, -, hfinite⟩
    · left
      rw [hdiv, hzero]
      rfl
    · right
      exact ⟨k, g, hk, by rw [hdiv, hfinite, ofModel_pack hk]; rfl⟩

end Binary64
end TransitSim
