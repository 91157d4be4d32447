import TransitSim.Decimal.Layout
import TransitSim.Proofs.Decimal.Shortest
import TransitSim.Proofs.Decimal.Words
import TransitSim.Proofs.Json.Numerals
import TransitSim.Proofs.Text.Delimiter

/-!
# Plain texts of doubles

A plain text has no exponent: it consists of digits around a point, behind a minus sign if the
number is negative. The number that the digits make rounds to the double that has been written,
whatever its size, so that different doubles have different texts. The two zeros differ by the sign.
-/

namespace TransitSim
namespace Decimal

open Binary64 Shortest Json Float.Model Float.Model.UnpackedFloat

/-!
# Digits around a point
-/

/-- The number that digits around a point make. -/
def plainValue (cs : List Char) : ℚ :=
  digitsValue (cs.filter Char.isDigit) / 10 ^ (cs.dropWhile Char.isDigit).tail.length

theorem plainValue_digits {ds : List Char} (h : AreDigits ds) :
    plainValue ds = digitsValue ds := by
  have hrest : ds.dropWhile Char.isDigit = [] := List.dropWhile_eq_nil_iff.mpr h
  rw [plainValue, List.filter_eq_self.mpr h, hrest]
  exact div_one _

theorem plainValue_point {ds es : List Char} (hds : AreDigits ds) (hes : AreDigits es) :
    plainValue (ds ++ '.' :: es) = digitsValue (ds ++ es) / 10 ^ es.length := by
  have hpoint : Char.isDigit '.' = false := by decide
  have hfilter : (ds ++ '.' :: es).filter Char.isDigit = ds ++ es := by
    rw [List.filter_append, List.filter_cons_of_neg (by rw [hpoint]; exact Bool.false_ne_true),
      List.filter_eq_self.mpr hds, List.filter_eq_self.mpr hes]
  have hrest : (ds ++ '.' :: es).dropWhile Char.isDigit = '.' :: es := by
    rw [List.dropWhile_append_of_pos hds,
      List.dropWhile_cons_of_neg (by rw [hpoint]; exact Bool.false_ne_true)]
  rw [plainValue, hfilter, hrest]
  rfl

theorem digitsValue_zeros (n k : Nat) :
    digitsValue (natDigits n ++ List.replicate k '0') = n * 10 ^ k := by
  show Nat.ofDigitChars 10 (Nat.toDigits 10 n ++ List.replicate k '0') 0 = _
  rw [Nat.ofDigitChars_append, Nat.ofDigitChars_replicate_zero, Nat.ofDigitChars_ten_toDigits,
    Nat.mul_comm]

theorem plainValue_positionalText (d : Digits) : plainValue (positionalText false d) = d.toRat := by
  rw [positionalText, Digits.toRat]
  split
  case isTrue hwhole =>
    have hdigits : AreDigits (natDigits d.coefficient ++ List.replicate d.exponent.toNat '0') := by
      intro c hc
      rcases List.mem_append.mp hc with hdigit | hzero
      · exact areDigits_natDigits _ c hdigit
      · rw [List.eq_of_mem_replicate hzero]
        decide
    have hexponent : d.exponent = (d.exponent.toNat : Int) := (Int.toNat_of_nonneg hwhole).symm
    rw [if_neg Bool.false_ne_true, plainValue_digits hdigits, digitsValue_zeros]
    nth_rewrite 2 [hexponent]
    rw [zpow_natCast]
    push_cast
    rfl
  case isFalse hpart =>
    have hplaces : ((padded d).drop (wholeLength d)).length = (-d.exponent).toNat := by
      rw [List.length_drop, wholeLength, length_padded]
      omega
    have hexponent : d.exponent = -((-d.exponent).toNat : Int) := by omega
    have hdigits := areDigits_padded d
    show plainValue ((padded d).take (wholeLength d) ++ '.' :: (padded d).drop (wholeLength d)) = _
    rw [plainValue_point (fun c hc => hdigits c (List.mem_of_mem_take hc))
      (fun c hc => hdigits c (List.mem_of_mem_drop hc)), List.take_append_drop, hplaces]
    nth_rewrite 2 [hexponent]
    have hvalue : digitsValue (padded d) = d.coefficient := ofDigitChars_padded d
    rw [zpow_neg, zpow_natCast, hvalue, div_eq_mul_inv]

/-!
# Signs
-/

structure IsUnsigned (cs : List Char) : Prop where
  ne : cs ≠ []
  minus : '-' ∉ cs

theorem minus_not_mem_of_areDigits {ds : List Char} (h : AreDigits ds) : '-' ∉ ds := by
  intro hmem
  exact absurd (h '-' hmem) (by decide)

theorem isUnsigned_positionalText (d : Digits) : IsUnsigned (positionalText false d) := by
  rw [positionalText]
  split
  case isTrue =>
    rw [if_neg Bool.false_ne_true]
    constructor
    · exact List.append_ne_nil_of_left_ne_nil Nat.toDigits_ne_nil _
    · intro hmem
      rcases List.mem_append.mp hmem with hdigit | hzero
      · exact minus_not_mem_of_areDigits (areDigits_natDigits _) hdigit
      · exact absurd (List.eq_of_mem_replicate hzero) (by decide)
  case isFalse =>
    show IsUnsigned ((padded d).take (wholeLength d) ++ '.' :: (padded d).drop (wholeLength d))
    have hdigits := minus_not_mem_of_areDigits (areDigits_padded d)
    constructor
    · exact List.append_ne_nil_of_right_ne_nil _ (List.cons_ne_nil _ _)
    · intro hmem
      rcases List.mem_append.mp hmem with hwhole | hrest
      · exact hdigits (List.mem_of_mem_take hwhole)
      · rcases List.mem_cons.mp hrest with hpoint | hpart
        · exact absurd hpoint (by decide)
        · exact hdigits (List.mem_of_mem_drop hpart)

def signed (negative : Bool) (cs : List Char) : List Char :=
  if negative then '-' :: cs else cs

theorem signed_append_inj {s t : Bool} {as bs cs ds : List Char} (ha : IsUnsigned as)
    (hc : IsUnsigned cs) (h : signed s as ++ '-' :: bs = signed t cs ++ '-' :: ds) :
    s = t ∧ as = cs ∧ bs = ds := by
  have hfirst : ∀ {es fs gs : List Char}, IsUnsigned es → es ++ '-' :: fs ≠ '-' :: gs := by
    intro es fs gs hes heq
    cases es with
    | nil => exact hes.ne rfl
    | cons e es =>
        have hminus : e = '-' := (List.cons.inj heq).1
        exact hes.minus (hminus ▸ List.mem_cons_self)
  cases s with
  | false =>
      cases t with
      | false => exact ⟨rfl, eq_of_append_delimiter ha.minus hc.minus h⟩
      | true => exact absurd h (hfirst ha)
  | true =>
      cases t with
      | false => exact absurd h.symm (hfirst hc)
      | true => exact ⟨rfl, eq_of_append_delimiter ha.minus hc.minus (List.cons.inj h).2⟩

/-!
# Texts of doubles
-/

def plainBody (m : Nat) (e : Int) : List Char :=
  positionalText false (if m = 0 then ⟨0, 0⟩ else digits .up m e)

theorem toList_text_of_exact {x : Float} {negative : Bool} {m : Nat} {e : Int}
    (h : exact x = .finite negative m e) : (text x).toList = signed negative (plainBody m e) := by
  have hfinite : Layout.plain.finite? x = some (signed negative (plainBody m e)) := by
    rw [Layout.finite?, h, plainBody, signed, apply_ite (positionalText false)]
    rfl
  rw [text, hfinite]
  exact String.toList_ofList

theorem isUnsigned_plainBody (m : Nat) (e : Int) : IsUnsigned (plainBody m e) :=
  isUnsigned_positionalText _

theorem plainValue_plainBody_zero (e : Int) : plainValue (plainBody 0 e) = 0 := by
  rw [plainBody, if_pos rfl, plainValue_positionalText, Digits.toRat]
  exact zero_mul _

theorem roundsTo_plainBody {m : Nat} {e : Int} (h : IsDouble m e) :
    RoundsTo (plainValue (plainBody m e)) m e := by
  rw [plainBody, if_neg (Nat.ne_of_gt h.pos), plainValue_positionalText]
  exact (digits_of_isDouble .up h).1

theorem eq_of_roundsTo_both {q : ℚ} {m n : Nat} {e f : Int} (hm : IsDouble m e)
    (hn : IsDouble n f) (hqm : RoundsTo q m e) (hqn : RoundsTo q n f) : m = n ∧ e = f := by
  have hpos : 0 < q := hqm.pos hm.pos
  have hnum : 0 < q.num.natAbs := Int.natAbs_pos.mpr (ne_of_gt (Rat.num_pos.mpr hpos))
  have hden : 0 < q.den := q.den_pos
  have hq : q = (q.num.natAbs : ℚ) / q.den := by
    have habs : ((q.num.natAbs : Int) : ℚ) = q.num := by
      rw [Int.natAbs_of_nonneg (le_of_lt (Rat.num_pos.mpr hpos))]
    rw [← Int.cast_natCast, habs, Rat.num_div_den]
  rw [hq] at hqm hqn
  have hbits : bitsOf m e = bitsOf n f := by
    rw [← magnitudeBits_of_roundsTo hnum hden hm hqm, magnitudeBits_of_roundsTo hnum hden hn hqn]
  have hword : wordOf .positive m e = wordOf .positive n f := congrArg (_ + ·) hbits
  exact (wordOf_inj hm hn hword).2

theorem exact_of_isFinite {x : Float} (h : x.isFinite = true) :
    exists negative m e, exact x = .finite negative m e ∧
      (m = 0 ∧ e = leastExponent ∨ IsDouble m e) := by
  rcases finite_cases h with ⟨s, hzero⟩ | ⟨s, m, e, hd, rfl⟩
  · exact ⟨_, 0, _, exact_of_zero hzero, Or.inl ⟨rfl, rfl⟩⟩
  · exact ⟨_, m, e, exact_double hd, Or.inr hd⟩

theorem signBit_beq_inj {s t : Sign} (h : (signBit s == 1) = (signBit t == 1)) :
    s = t := by
  cases s with
  | positive =>
      cases t with
      | positive => rfl
      | negative => cases h
  | negative =>
      cases t with
      | positive => cases h
      | negative => rfl

theorem exact_inj {x y : Float} (hx : x.isFinite = true) (hy : y.isFinite = true)
    (h : exact x = exact y) : x = y := by
  rcases finite_cases hx with ⟨s, hzero⟩ | ⟨s, m, e, hd, rfl⟩
  · rw [exact_of_zero hzero] at h
    rcases finite_cases hy with ⟨t, hzero'⟩ | ⟨t, n, f, hd', rfl⟩
    · rw [exact_of_zero hzero'] at h
      have hsign : s = t := signBit_beq_inj (Exact.finite.inj h).1
      subst hsign
      apply Float.toBits_inj.mp
      apply UInt64.toBitVec_inj.mp
      exact (unpack_inj_of_valid x.toModel.valid y.toModel.valid).mp
        (hzero.trans hzero'.symm)
    · rw [exact_double hd'] at h
      exact absurd (Exact.finite.inj h).2.1.symm (Nat.ne_of_gt hd'.pos)
  · rw [exact_double hd] at h
    rcases finite_cases hy with ⟨t, hzero'⟩ | ⟨t, n, f, hd', rfl⟩
    · rw [exact_of_zero hzero'] at h
      exact absurd (Exact.finite.inj h).2.1 (Nat.ne_of_gt hd.pos)
    · rw [exact_double hd'] at h
      rcases Exact.finite.inj h with ⟨hsign, rfl, rfl⟩
      rw [signBit_beq_inj hsign]

theorem plainBody_inj {m n : Nat} {e f : Int} (hm : m = 0 ∧ e = leastExponent ∨ IsDouble m e)
    (hn : n = 0 ∧ f = leastExponent ∨ IsDouble n f) (h : plainBody m e = plainBody n f) :
    m = n ∧ e = f := by
  have hzero : ∀ {k g g'}, IsDouble k g → plainBody 0 g' ≠ plainBody k g := by
    intro k g g' hk heq
    have hpos := (roundsTo_plainBody hk).pos hk.pos
    rw [← heq, plainValue_plainBody_zero] at hpos
    exact lt_irrefl _ hpos
  rcases hm with ⟨rfl, rfl⟩ | hm
  · rcases hn with ⟨rfl, rfl⟩ | hn
    · exact ⟨rfl, rfl⟩
    · exact absurd h (hzero hn)
  · rcases hn with ⟨rfl, rfl⟩ | hn
    · exact absurd h.symm (hzero hm)
    · exact eq_of_roundsTo_both hm hn (roundsTo_plainBody hm) (h ▸ roundsTo_plainBody hn)

theorem text_append_inj {x y : Float} (hx : x.isFinite = true) (hy : y.isFinite = true)
    {bs ds : List Char} (h : (text x).toList ++ '-' :: bs = (text y).toList ++ '-' :: ds) :
    x = y ∧ bs = ds := by
  rcases exact_of_isFinite hx with ⟨s, m, e, hexact, hm⟩
  rcases exact_of_isFinite hy with ⟨t, n, f, hexact', hn⟩
  rw [toList_text_of_exact hexact, toList_text_of_exact hexact'] at h
  rcases signed_append_inj (isUnsigned_plainBody m e) (isUnsigned_plainBody n f) h with
    ⟨rfl, hbody, hrest⟩
  rcases plainBody_inj hm hn hbody with ⟨rfl, rfl⟩
  exact ⟨exact_inj hx hy (hexact.trans hexact'.symm), hrest⟩

theorem text_inj {x y : Float} (hx : x.isFinite = true) (hy : y.isFinite = true)
    (h : text x = text y) : x = y := by
  have hchars : (text x).toList ++ '-' :: [] = (text y).toList ++ '-' :: [] := by rw [h]
  exact (text_append_inj hx hy hchars).1

end Decimal
end TransitSim
