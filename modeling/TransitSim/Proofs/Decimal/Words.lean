import Mathlib
import TransitSim.Proofs.Decimal.Rounding

/-!
# Doubles as words

A positive double is known by its mantissa and its exponent. They can be read off its bits, and give
them back.
-/

namespace TransitSim
namespace Binary64

open Float.Model Float.Model.UnpackedFloat

def signBit (s : Sign) : Nat := s.toBitVec.toNat

theorem signBit_lt (s : Sign) : signBit s < 2 := by
  cases s <;> decide

/-!
# Fields of a word
-/

section
variable (b : BitVec Format.binary64.numBits)

theorem toNat_unpackMantissa : (unpackMantissa b).toNat = b.toNat % 2 ^ 52 := by
  show (b.toNat >>> 0) % 2 ^ 52 = _
  rw [Nat.shiftRight_zero]

theorem toNat_unpackExponent : (unpackExponent b).toNat = b.toNat / 2 ^ 52 % 2 ^ 11 := by
  show (b.toNat >>> 52) % 2 ^ 11 = _
  rw [Nat.shiftRight_eq_div_pow]

theorem toNat_implicit :
    (1#1 ++ unpackMantissa b).toNat = 2 ^ 52 + (unpackMantissa b).toNat := by
  rw [BitVec.toNat_append, ← Nat.shiftLeft_add_eq_or_of_lt (unpackMantissa b).isLt,
    Nat.shiftLeft_eq]
  rfl

theorem signBit_unpackSign : signBit (Sign.ofBitVec (unpackSign b)) = b.toNat / 2 ^ 63 % 2 := by
  have hsign : (unpackSign b).toNat = b.toNat / 2 ^ 63 % 2 := by
    show (b.toNat >>> 63) % 2 ^ 1 = _
    rw [Nat.shiftRight_eq_div_pow]
  have hall : ∀ bit : BitVec 1, signBit (Sign.ofBitVec bit) = bit.toNat := by decide
  rw [hall, hsign]

end

theorem toNat_packComponents (s : Sign) (exponent : BitVec 11) (mantissa : BitVec 52) :
    (packComponents Format.binary64 s exponent mantissa).toNat =
      signBit s * 2 ^ 63 + exponent.toNat * 2 ^ 52 + mantissa.toNat := by
  have hexponent := exponent.isLt
  have hmantissa := mantissa.isLt
  rw [packComponents, BitVec.toNat_append, BitVec.toNat_append, ← Nat.shiftLeft_add_eq_or_of_lt
    hmantissa, ← Nat.shiftLeft_add_eq_or_of_lt hexponent, Nat.shiftLeft_eq, Nat.shiftLeft_eq]
  show (signBit s * 2 ^ 11 + exponent.toNat) * 2 ^ 52 + mantissa.toNat = _
  omega

/-!
# Packing and unpacking
-/

def wordOf (s : Sign) (m : Nat) (e : Int) : Nat :=
  signBit s * 2 ^ 63 + bitsOf m e

theorem wordOf_lt {s : Sign} {m : Nat} {e : Int} (h : IsDouble m e) : wordOf s m e < 2 ^ 64 := by
  have hbits := bitsOf_lt h
  have hinfinity : infinityBits = 2047 * 2 ^ 52 := rfl
  have hsign := signBit_lt s
  rw [wordOf]
  omega

theorem toNat_pack {s : Sign} {m : Nat} {e : Int} (h : IsDouble m e) :
    (UnpackedFloat.pack Format.binary64 (.finite s m e h.pos)).toNat = wordOf s m e := by
  have hlt := h.lt
  have hleast : leastExponent = -1074 := rfl
  have hlow := h.least
  have hgreatest := h.greatest
  have hm0 : m ≠ 0 := Nat.ne_of_gt h.pos
  have hbias : e + (1023 : Nat) + (52 : Nat) = ((e + 1075).toNat : Int) := by omega
  rw [UnpackedFloat.pack]
  show (if 2 ^ 11 ≤ (e + (1023 : Nat) + (52 : Nat)).toNat + 1 then packedInfinity Format.binary64 s
    else if m.log2 + 1 = 53 then
      packComponents Format.binary64 s (BitVec.ofNat _ (e + (1023 : Nat) + (52 : Nat)).toNat)
        (BitVec.ofNat _ m)
    else packComponents Format.binary64 s 0#_ (BitVec.ofNat _ m)).toNat = _
  rw [hbias, Int.toNat_natCast, if_neg (by omega)]
  by_cases hnormal : m.log2 + 1 = 53
  · have hlog : 2 ^ 52 ≤ m := by
      rw [← show m.log2 = 52 by omega]
      exact Nat.log2_self_le hm0
    rw [if_pos hnormal, toNat_packComponents, BitVec.toNat_ofNat, BitVec.toNat_ofNat, wordOf,
      bitsOf]
    omega
  · have hlog : m < 2 ^ 52 := by
      have hless : m.log2 < 53 := (Nat.log2_lt hm0).mpr hlt
      exact (Nat.log2_lt hm0).mp (by omega)
    have hexponent : e = leastExponent := h.normal.resolve_left (by omega)
    rw [if_neg hnormal, toNat_packComponents, BitVec.toNat_ofNat, wordOf, bitsOf, hexponent,
      Int.sub_self]
    show signBit s * 2 ^ 63 + 0 * 2 ^ 52 + m % 2 ^ 52 = _
    omega

theorem wordOf_of_unpack {b : BitVec Format.binary64.numBits} {s : Sign} {m : Nat} {e : Int}
    {hm : 0 < m} (h : UnpackedFloat.unpack Format.binary64 b = .finite s m e hm) :
    IsDouble m e ∧ b.toNat = wordOf s m e := by
  have hmantissa := toNat_unpackMantissa b
  have hexponent := toNat_unpackExponent b
  have hsign := signBit_unpackSign b
  have hb : b.toNat < 2 ^ 64 := b.isLt
  have hleast : leastExponent = -1074 := rfl
  rw [UnpackedFloat.unpack] at h
  dsimp only at h
  split at h
  case isTrue hfull => split at h <;> cases h
  case isFalse hfull =>
    have hfull' : (unpackExponent b).toNat ≠ 2047 := by
      intro heq
      exact hfull (BitVec.eq_of_toNat_eq heq)
    split at h
    case isTrue hzero =>
      have hzero' : (unpackExponent b).toNat = 0 := by
        rw [hzero]
        rfl
      split at h
      case isTrue => cases h
      case isFalse hpos =>
        have hbias : (((unpackExponent b).toNat : Int) - ((1023 : Nat) + (52 : Nat)) + 1) = e :=
          (UnpackedFloat.finite.inj h).2.2
        have hsame := (UnpackedFloat.finite.inj h).2.1
        rw [← (UnpackedFloat.finite.inj h).1, wordOf, bitsOf, hsign]
        refine ⟨⟨hm, by omega, by omega, by omega, by omega⟩, by omega⟩
    case isFalse hzero =>
      have hzero' : (unpackExponent b).toNat ≠ 0 := by
        intro heq
        exact hzero (BitVec.eq_of_toNat_eq heq)
      have hbias : (((unpackExponent b).toNat : Int) - ((1023 : Nat) + (52 : Nat))) = e :=
        (UnpackedFloat.finite.inj h).2.2
      have hsame : (1#1 ++ unpackMantissa b).toNat = m := (UnpackedFloat.finite.inj h).2.1
      have himplicit := toNat_implicit b
      have hexponentlt := (unpackExponent b).isLt
      rw [← (UnpackedFloat.finite.inj h).1, wordOf, bitsOf, hsign]
      refine ⟨⟨hm, by omega, by omega, by omega, by omega⟩, by omega⟩

theorem wordOf_inj {s t : Sign} {m n : Nat} {e f : Int} (hm : IsDouble m e) (hn : IsDouble n f)
    (h : wordOf s m e = wordOf t n f) : s = t ∧ m = n ∧ e = f := by
  have hinfinity : infinityBits = 2047 * 2 ^ 52 := rfl
  have hleast : leastExponent = -1074 := rfl
  have hbits := bitsOf_lt hm
  have hbits' := bitsOf_lt hn
  rcases hm with ⟨hpos, hlt, hlow, hhigh, hnormal⟩
  rcases hn with ⟨hpos', hlt', hlow', hhigh', hnormal'⟩
  have hsign : signBit s = signBit t ∧ bitsOf m e = bitsOf n f := by
    rw [wordOf, wordOf] at h
    omega
  rw [bitsOf, bitsOf] at hsign
  refine ⟨?_, by omega, by omega⟩
  cases s <;> cases t <;> first | rfl | cases hsign.1

theorem exists_finite_of_fields {b : BitVec Format.binary64.numBits}
    (hfull : unpackExponent b ≠ -1#_) (hzero : unpackExponent b = 0#_ → unpackMantissa b ≠ 0#_) :
    exists s m e hm, UnpackedFloat.unpack Format.binary64 b = .finite s m e hm := by
  rw [UnpackedFloat.unpack]
  dsimp only
  rw [if_neg hfull]
  split
  case isTrue heq =>
    have hpos : 0 < (unpackMantissa b).toNat :=
      Nat.pos_of_ne_zero fun hnone => hzero heq (BitVec.eq_of_toNat_eq hnone)
    rw [dif_neg (hzero heq)]
    exact ⟨_, _, _, hpos, rfl⟩
  case isFalse =>
    have hpos : 0 < (1#1 ++ unpackMantissa b).toNat := by
      rw [toNat_implicit]
      omega
    exact ⟨_, _, _, hpos, rfl⟩

theorem unpack_of_toNat {b : BitVec Format.binary64.numBits} {s : Sign} {m : Nat} {e : Int}
    (h : IsDouble m e) (hb : b.toNat = wordOf s m e) :
    UnpackedFloat.unpack Format.binary64 b = .finite s m e h.pos := by
  have hmantissa := toNat_unpackMantissa b
  have hexponent := toNat_unpackExponent b
  have hinfinity : infinityBits = 2047 * 2 ^ 52 := rfl
  have hleast : leastExponent = -1074 := rfl
  have hbits := bitsOf_lt h
  have hbitspos : 0 < bitsOf m e := by
    have hpos := h.pos
    rw [bitsOf]
    omega
  rw [hb, wordOf] at hmantissa hexponent
  have hfull : unpackExponent b ≠ -1#_ := by
    intro heq
    have hfield : (unpackExponent b).toNat = 2047 := congrArg BitVec.toNat heq
    omega
  have hzero : unpackExponent b = 0#_ → unpackMantissa b ≠ 0#_ := by
    intro heq heq'
    have hfield : (unpackExponent b).toNat = 0 := congrArg BitVec.toNat heq
    have hfield' : (unpackMantissa b).toNat = 0 := congrArg BitVec.toNat heq'
    omega
  rcases exists_finite_of_fields hfull hzero with ⟨t, n, f, hn, hunpack⟩
  rcases wordOf_of_unpack hunpack with ⟨hn', hword⟩
  rcases wordOf_inj h hn' (hb.symm.trans hword) with ⟨rfl, rfl, rfl⟩
  exact hunpack

/-!
# Doubles
-/

def double (s : Sign) (m : Nat) (e : Int) : Float :=
  Float.ofBits (UInt64.ofNat (wordOf s m e))

theorem toNat_ofNat_wordOf {s : Sign} {m : Nat} {e : Int} (h : IsDouble m e) :
    (UInt64.ofNat (wordOf s m e)).toBitVec.toNat = wordOf s m e := by
  rw [UInt64.toBitVec_ofNat', BitVec.toNat_ofNat, Nat.mod_eq_of_lt (wordOf_lt h)]

theorem toModel_double {s : Sign} {m : Nat} {e : Int} (h : IsDouble m e) :
    (double s m e).toModel = .pack (.finite s m e h.pos) := by
  show Float.Model.pack (UnpackedFloat.unpack Format.binary64
    (UInt64.ofNat (wordOf s m e)).toBitVec) = _
  rw [unpack_of_toNat h (toNat_ofNat_wordOf h)]

theorem unpack_double {s : Sign} {m : Nat} {e : Int} (h : IsDouble m e) :
    (double s m e).toModel.unpack = .finite s m e h.pos := by
  rw [toModel_double h]
  exact unpack_of_toNat h (toNat_pack h)

theorem eq_double_of_unpack {x : Float} {s : Sign} {m : Nat} {e : Int} {hm : 0 < m}
    (h : x.toModel.unpack = .finite s m e hm) : IsDouble m e ∧ x = double s m e := by
  rcases wordOf_of_unpack h with ⟨hd, hword⟩
  refine ⟨hd, ?_⟩
  apply Float.toBits_inj.mp
  apply UInt64.toBitVec_inj.mp
  exact (unpack_inj_of_valid x.toModel.valid (double s m e).toModel.valid).mp
    (h.trans (unpack_double hd).symm)

theorem exact_double {s : Sign} {m : Nat} {e : Int} (h : IsDouble m e) :
    exact (double s m e) = .finite (signBit s == 1) m e := by
  have hbits : (double s m e).toBits.toNat = wordOf s m e := by
    show (double s m e).toModel.toBits.toBitVec.toNat = _
    rw [toModel_double h]
    exact toNat_pack h
  have hinfinity : infinityBits = 2047 * 2 ^ 52 := rfl
  have hleast : leastExponent = -1074 := rfl
  have hlt := bitsOf_lt h
  have hsign := signBit_lt s
  rw [exact, hbits, exactOfBits]
  rcases h with ⟨hpos, hsmall, hlow, hhigh, hnormal⟩
  have hnegative : wordOf s m e / Nat.pow 2 63 % 2 = signBit s := by
    rw [wordOf, Nat.pow_eq]
    omega
  have hfraction : wordOf s m e % Nat.pow 2 52 = m % 2 ^ 52 := by
    rw [wordOf, bitsOf, Nat.pow_eq]
    omega
  have hfield : wordOf s m e / Nat.pow 2 52 % Nat.pow 2 11 = bitsOf m e / 2 ^ 52 := by
    rw [wordOf, Nat.pow_eq, Nat.pow_eq]
    omega
  rw [hnegative, hfraction, hfield]
  have hfinite : bitsOf m e / 2 ^ 52 ≠ 2047 := by omega
  rw [if_neg hfinite, bitsOf]
  rw [bitsOf] at hfinite
  by_cases hm : 2 ^ 52 ≤ m
  · rw [if_neg (by omega)]
    congr 1
    · rw [Nat.pow_eq]
      omega
    · omega
  · have he : e = leastExponent := hnormal.resolve_left hm
    rw [if_pos (by omega), he]
    congr 1
    omega

theorem exact_of_zero {x : Float} {s : Sign} (h : x.toModel.unpack = .zero s) :
    exact x = .finite (signBit s == 1) 0 leastExponent := by
  have hword : x.toModel.toBits.toBitVec = packedZero Format.binary64 s :=
    (unpack_eq_zero_iff_of_valid x.toModel.valid).mp h
  show exactOfBits x.toModel.toBits.toBitVec.toNat = _
  rw [hword]
  cases s <;> rfl

theorem isDouble_of_exact {x : Float} {negative : Bool} {m : Nat} {e : Int}
    (h : exact x = .finite negative m e) (hm : 0 < m) : IsDouble m e := by
  have hleast : leastExponent = -1074 := rfl
  rw [exact, exactOfBits, Nat.pow_eq, Nat.pow_eq, Nat.pow_eq] at h
  split at h
  case isTrue => split at h <;> cases h
  case isFalse hfull =>
    split at h
    case isTrue =>
      have hmantissa := (Exact.finite.inj h).2.1
      have hexponent := (Exact.finite.inj h).2.2
      exact ⟨hm, by omega, by omega, by omega, Or.inr hexponent.symm⟩
    case isFalse hfield =>
      have hmantissa := (Exact.finite.inj h).2.1
      have hexponent := (Exact.finite.inj h).2.2
      exact ⟨hm, by omega, by omega, by omega, Or.inl (by omega)⟩

theorem finite_cases {x : Float} (h : x.isFinite = true) :
    (exists s, x.toModel.unpack = .zero s) ∨ exists s m e, IsDouble m e ∧ x = double s m e := by
  have hfinite : x.toModel.unpack.isFinite = true := h
  cases hunpack : x.toModel.unpack with
  | infinity s =>
      rw [hunpack] at hfinite
      cases hfinite
  | notANumber =>
      rw [hunpack] at hfinite
      cases hfinite
  | zero s => exact Or.inl ⟨s, rfl⟩
  | finite s m e hm =>
      rcases eq_double_of_unpack hunpack with ⟨hd, heq⟩
      exact Or.inr ⟨s, m, e, hd, heq⟩

theorem ofRatio_of_roundsTo {num den m : Nat} {e : Int} (hnum : 0 < num) (hden : 0 < den)
    (hd : IsDouble m e) (h : RoundsTo (num / den) m e) :
    ofRatio false num den = double .positive m e := by
  rw [ofRatio, magnitudeBits_of_roundsTo hnum hden hd h, double, wordOf]
  rfl

end Binary64
end TransitSim
