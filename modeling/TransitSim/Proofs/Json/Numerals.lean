import Mathlib.Algebra.Group.Nat.Defs
import TransitSim.Json.Number

/-!
# Reading back numerals

Each number is written as one numeral, which is read back part by part. Integers keep their value.
What a double comes back as depends on its shortest digits only.
-/

namespace TransitSim
namespace Json

open Binary64 Decimal Shortest

/-!
# The text of a numeral
-/

def AreDigits (ds : List Char) : Prop := ∀ c ∈ ds, c.isDigit = true

def fractionChars : Option (List Char) → List Char
  | none => []
  | some ds => '.' :: ds

def exponentChars : Option Int → List Char
  | none => []
  | some e => 'e' :: (if e < 0 then '-' else '+') :: natDigits e.natAbs

namespace Numeral

def body (n : Numeral) : List Char :=
  n.whole ++ (fractionChars n.fraction ++ exponentChars n.exponent)

def chars (n : Numeral) : List Char :=
  if n.negative then '-' :: n.body else n.body

/-- Whether the parts of a numeral can be read back. -/
structure IsProper (n : Numeral) : Prop where
  digits : AreDigits n.whole
  whole : isWhole n.whole = true
  fraction : ∀ ds, n.fraction = some ds → ds ≠ [] ∧ AreDigits ds

end Numeral

def StopsDigits (cs : List Char) : Prop := ∀ c ∈ cs.head?, c.isDigit = false

def IsDelimiter (c : Char) : Prop := c.isDigit = false ∧ c ≠ '.' ∧ c ≠ 'e' ∧ c ≠ 'E'

instance (c : Char) : Decidable (IsDelimiter c) :=
  inferInstanceAs (Decidable (c.isDigit = false ∧ c ≠ '.' ∧ c ≠ 'e' ∧ c ≠ 'E'))

def EndsNumeral (cs : List Char) : Prop := ∀ c ∈ cs.head?, IsDelimiter c

theorem EndsNumeral.stopsDigits {cs : List Char} (h : EndsNumeral cs) : StopsDigits cs :=
  fun c hc => (h c hc).1

/-!
# Reading the parts
-/

theorem spanDigits_append {ds rest : List Char} (hds : AreDigits ds) (hrest : StopsDigits rest) :
    spanDigits (ds ++ rest) = (ds, rest) := by
  have hnone : rest.takeWhile Char.isDigit = [] ∧ rest.dropWhile Char.isDigit = rest := by
    cases rest with
    | nil => exact ⟨rfl, rfl⟩
    | cons c cs =>
        have hc : c.isDigit = false := hrest c rfl
        exact ⟨List.takeWhile_cons_of_neg (Bool.not_eq_true _ ▸ hc),
          List.dropWhile_cons_of_neg (Bool.not_eq_true _ ▸ hc)⟩
  rw [spanDigits, List.takeWhile_append_of_pos hds, List.dropWhile_append_of_pos hds, hnone.1,
    hnone.2, List.append_nil]

theorem stopsDigits_exponentChars {rest : List Char} (h : EndsNumeral rest) (e : Option Int) :
    StopsDigits (exponentChars e ++ rest) := by
  cases e with
  | none => exact h.stopsDigits
  | some e =>
      intro c hc
      cases hc
      decide

theorem stopsDigits_fractionChars {rest : List Char} (h : StopsDigits rest)
    (f : Option (List Char)) : StopsDigits (fractionChars f ++ rest) := by
  cases f with
  | none => exact h
  | some ds =>
      intro c hc
      cases hc
      decide

theorem fractionPart?_append {f : Option (List Char)} {rest : List Char}
    (hf : ∀ ds, f = some ds → ds ≠ [] ∧ AreDigits ds) (hstops : StopsDigits rest)
    (hpoint : ∀ c ∈ rest.head?, c ≠ '.') :
    fractionPart? (fractionChars f ++ rest) = some (f, rest) := by
  cases f with
  | none =>
      rw [fractionChars, List.nil_append, fractionPart?.eq_def]
      split
      case h_1 => exact absurd rfl (hpoint '.' rfl)
      case h_2 => rfl
  | some ds =>
      rcases hf ds rfl with ⟨hne, hds⟩
      rw [fractionChars, List.cons_append, fractionPart?, spanDigits_append hds hstops]
      dsimp only
      rw [if_neg (by rwa [List.isEmpty_iff])]

theorem areDigits_natDigits (n : Nat) : AreDigits (natDigits n) :=
  fun _ hc => Nat.isDigit_of_mem_toDigits (by decide) (by decide) hc

theorem digitsValue_natDigits (n : Nat) : digitsValue (natDigits n) = n :=
  Nat.ofDigitChars_ten_toDigits

theorem exponentPart?_append {rest : List Char} (h : EndsNumeral rest) (e : Option Int) :
    exponentPart? (exponentChars e ++ rest) = some (e, rest) := by
  cases e with
  | none =>
      rw [exponentChars, List.nil_append, exponentPart?.eq_def]
      cases rest with
      | nil => rfl
      | cons c cs =>
          rcases h c rfl with ⟨-, -, hsmall, hgreat⟩
          dsimp only
          rw [if_neg (not_or.mpr ⟨hsmall, hgreat⟩)]
  | some e =>
      have hspan := spanDigits_append (areDigits_natDigits e.natAbs) h.stopsDigits
      have hne : (natDigits e.natAbs).isEmpty = false := by
        rw [List.isEmpty_eq_false_iff]
        exact Nat.toDigits_ne_nil
      rw [exponentChars, List.cons_append, List.cons_append, exponentPart?, if_pos (Or.inl rfl)]
      by_cases hneg : e < 0
      · simp only [if_pos hneg, splitSign, hspan, hne, digitsValue_natDigits, Bool.false_eq_true,
          if_false, if_true]
        congr 3
        omega
      · simp only [if_neg hneg, splitSign, hspan, hne, digitsValue_natDigits, Bool.false_eq_true,
          if_false]
        congr 3
        omega

theorem numeral?_chars {n : Numeral} {rest : List Char} (hn : n.IsProper)
    (hrest : EndsNumeral rest) :
    numeral? (n.chars ++ rest) = some (n, rest) := by
  rcases n with ⟨negative, whole, fraction, exponent⟩
  rcases hn with ⟨hdigits, hwhole, hfraction⟩
  have hexponent := stopsDigits_exponentChars hrest exponent
  have hspan := spanDigits_append hdigits (stopsDigits_fractionChars hexponent fraction)
  have hpoint : ∀ c ∈ (exponentChars exponent ++ rest).head?, c ≠ '.' := by
    intro c hc
    cases exponent with
    | none => exact (hrest c hc).2.1
    | some e =>
        cases hc
        decide
  have hfrac := fractionPart?_append hfraction hexponent hpoint
  have hbody : Numeral.body ⟨negative, whole, fraction, exponent⟩ ++ rest =
      whole ++ (fractionChars fraction ++ (exponentChars exponent ++ rest)) := by
    simp only [Numeral.body, List.append_assoc]
  cases negative with
  | true =>
      rw [Numeral.chars, if_pos rfl, List.cons_append, hbody, numeral?]
      simp only [hspan, hwhole, if_true, hfrac, exponentPart?_append hrest, bind, Option.bind]
  | false =>
      cases whole with
      | nil => cases hwhole
      | cons c cs =>
          have hc : c ≠ '-' := by
            rintro rfl
            exact absurd (hdigits '-' List.mem_cons_self) (by decide)
          rw [Numeral.chars, if_neg Bool.false_ne_true, hbody, numeral?.eq_def]
          rw [List.cons_append] at hspan ⊢
          split
          rename_i heq
          split at heq
          case h_1 heq' =>
            cases heq'
            exact absurd rfl hc
          case h_2 =>
            cases heq
            simp only [hspan, hwhole, if_true, hfrac, exponentPart?_append hrest, bind, Option.bind]

/-!
# Digits of a number
-/

theorem natDigits_eq_cons {n : Nat} (h : 0 < n) :
    exists c cs, natDigits n = c :: cs ∧ c ≠ '0' := by
  induction n using Nat.strongRecOn with
  | ind n ih =>
      rw [natDigits, Nat.toDigits_eq_if (by decide)]
      split
      case isTrue hlt =>
        refine ⟨n.digitChar, [], rfl, ?_⟩
        have hall : ∀ i : Fin 10, 0 < i.val → i.val.digitChar ≠ '0' := by decide
        exact hall ⟨n, hlt⟩ h
      case isFalse hlt =>
        rcases ih (n / 10) (by omega) (by omega) with ⟨c, cs, heq, hc⟩
        rw [natDigits] at heq
        exact ⟨c, cs ++ [(n % 10).digitChar], by rw [heq]; rfl, hc⟩

theorem isWhole_cons {c : Char} (hc : c ≠ '0') (cs : List Char) : isWhole (c :: cs) = true := by
  cases cs with
  | nil => rfl
  | cons => exact bne_iff_ne.mpr hc

theorem isWhole_natDigits (n : Nat) : isWhole (natDigits n) = true := by
  rcases Nat.eq_zero_or_pos n with rfl | hpos
  · rfl
  · rcases natDigits_eq_cons hpos with ⟨c, cs, heq, hc⟩
    rw [heq]
    exact isWhole_cons hc cs

theorem le_ofDigitChars (ds : List Char) (n : Nat) : n ≤ Nat.ofDigitChars 10 ds n := by
  rw [Nat.ofDigitChars_eq_ofDigitChars_zero]
  exact Nat.le_add_right_of_le (Nat.le_mul_of_pos_left n (Nat.pow_pos (by decide)))

theorem appendDigits_of_lt {ds : List Char} {n : Nat} (h : Nat.ofDigitChars 10 ds n < wordLimit) :
    appendDigits n ds = (Nat.ofDigitChars 10 ds n, ds.length) := by
  induction ds generalizing n with
  | nil => rfl
  | cons c cs ih =>
      rw [Nat.ofDigitChars_cons] at h ⊢
      rw [appendDigits]
      dsimp only
      rw [if_pos (Nat.lt_of_le_of_lt (le_ofDigitChars cs _) h), ih h]
      rfl

/-!
# Integers
-/

def Numeral.ofNat (negative : Bool) (n : Nat) : Numeral :=
  ⟨negative, natDigits n, none, none⟩

theorem isProper_ofNat (negative : Bool) (n : Nat) : (Numeral.ofNat negative n).IsProper :=
  ⟨areDigits_natDigits n, isWhole_natDigits n, fun _ h => by cases h⟩

theorem chars_ofNat (negative : Bool) (n : Nat) :
    (Numeral.ofNat negative n).chars = if negative then '-' :: natDigits n else natDigits n := by
  show (if negative then '-' :: (natDigits n ++ ([] ++ [])) else natDigits n ++ ([] ++ [])) = _
  rw [List.append_nil, List.append_nil]

theorem number?_ofNat (negative : Bool) {n : Nat} (h : n < wordLimit) :
    (Numeral.ofNat negative n).number? =
      if !negative then some (.natural n)
      else if n = 0 ∨ Nat.pow 2 63 < n then some (.real (-(nearestDouble n)))
      else some (.negative n) := by
  have hvalue : Nat.ofDigitChars 10 (natDigits n) 0 = n := Nat.ofDigitChars_ten_toDigits
  have happend : appendDigits 0 (natDigits n) = (n, (natDigits n).length) := by
    rw [appendDigits_of_lt (by rwa [hvalue]), hvalue]
  rw [Numeral.number?, Numeral.ofNat]
  dsimp only
  rw [happend]
  dsimp only
  rw [if_pos ⟨rfl, rfl, Nat.sub_self _⟩]

/-!
# Decimals
-/

def leading (d : Digits) : Int := d.exponent + ((natDigits d.coefficient).length - 1 : Nat)

def IsPositional (d : Digits) : Prop := -5 ≤ leading d ∧ leading d < 16

instance (d : Digits) : Decidable (IsPositional d) :=
  inferInstanceAs (Decidable (-5 ≤ leading d ∧ leading d < 16))

def padded (d : Digits) : List Char :=
  List.replicate ((-d.exponent).toNat + 1 - (natDigits d.coefficient).length) '0' ++
    natDigits d.coefficient

def wholeLength (d : Digits) : Nat := (padded d).length - (-d.exponent).toNat

def Numeral.ofDigits (negative : Bool) (d : Digits) : Numeral :=
  if IsPositional d then
    if 0 ≤ d.exponent then
      ⟨negative, natDigits d.coefficient ++ List.replicate d.exponent.toNat '0', some ['0'], none⟩
    else ⟨negative, (padded d).take (wholeLength d), some ((padded d).drop (wholeLength d)), none⟩
  else match natDigits d.coefficient with
    | [] => ⟨negative, [], none, none⟩
    | [c] => ⟨negative, [c], none, some (leading d)⟩
    | c :: rest => ⟨negative, [c], some rest, some (leading d)⟩

structure IsShown (d : Digits) : Prop where
  le : d.coefficient ≤ 10 ^ 17
  zero : d.coefficient = 0 → d.exponent = 0

theorem length_padded (d : Digits) :
    (padded d).length =
      max ((-d.exponent).toNat + 1) (natDigits d.coefficient).length := by
  rw [padded, List.length_append, List.length_replicate]
  omega

theorem areDigits_padded (d : Digits) : AreDigits (padded d) := by
  intro c hc
  rcases List.mem_append.mp hc with hzero | hdigit
  · rw [List.eq_of_mem_replicate hzero]
    decide
  · exact areDigits_natDigits _ c hdigit

theorem ofDigitChars_padded (d : Digits) : Nat.ofDigitChars 10 (padded d) 0 = d.coefficient := by
  rw [padded, Nat.ofDigitChars_append, Nat.ofDigitChars_replicate_zero, Nat.mul_zero]
  exact Nat.ofDigitChars_ten_toDigits

theorem isWhole_take_padded {d : Digits} (h : IsShown d) (hneg : d.exponent < 0) :
    isWhole ((padded d).take (wholeLength d)) = true := by
  have hpos : 0 < d.coefficient := by
    rcases Nat.eq_zero_or_pos d.coefficient with hzero | hpos
    · have hexponent := h.zero hzero
      omega
    · exact hpos
  have hlength := length_padded d
  rcases natDigits_eq_cons hpos with ⟨c, cs, heq, hc⟩
  by_cases hshort : (natDigits d.coefficient).length ≤ (-d.exponent).toNat
  · have hone : wholeLength d = 1 := by
      rw [wholeLength]
      omega
    have hzeros : (-d.exponent).toNat + 1 - (natDigits d.coefficient).length =
        ((-d.exponent).toNat - (natDigits d.coefficient).length) + 1 := by
      omega
    rw [hone, padded, hzeros, List.replicate_succ]
    rfl
  · have hnone : (-d.exponent).toNat + 1 - (natDigits d.coefficient).length = 0 := by omega
    have hsome : wholeLength d = wholeLength d - 1 + 1 := by
      rw [wholeLength]
      omega
    rw [hsome, padded, hnone, heq]
    exact isWhole_cons hc _

theorem isProper_ofDigits (negative : Bool) {d : Digits} (h : IsShown d) :
    (Numeral.ofDigits negative d).IsProper := by
  have hdigits := areDigits_natDigits d.coefficient
  rw [Numeral.ofDigits]
  split
  case isTrue hpositional =>
    split
    case isTrue hexponent =>
      refine ⟨?_, ?_, ?_⟩
      · intro c hc
        rcases List.mem_append.mp hc with hdigit | hzero
        · exact hdigits c hdigit
        · rw [List.eq_of_mem_replicate hzero]
          decide
      · rcases Nat.eq_zero_or_pos d.coefficient with hzero | hpos
        · rw [hzero, h.zero hzero]
          rfl
        · rcases natDigits_eq_cons hpos with ⟨c, cs, heq, hc⟩
          rw [heq]
          exact isWhole_cons hc _
      · rintro ds ⟨⟩
        exact ⟨List.cons_ne_nil _ _, areDigits_natDigits 0⟩
    case isFalse hexponent =>
      have hpadded := areDigits_padded d
      refine ⟨fun c hc => hpadded c (List.mem_of_mem_take hc),
        isWhole_take_padded h (by omega), ?_⟩
      rintro ds ⟨⟩
      refine ⟨List.ne_nil_of_length_pos ?_, fun c hc => hpadded c (List.mem_of_mem_drop hc)⟩
      rw [List.length_drop, wholeLength, length_padded]
      omega
  case isFalse hpositional =>
    split
    case h_1 heq => exact absurd heq Nat.toDigits_ne_nil
    case h_2 c heq =>
      rw [heq] at hdigits
      exact ⟨hdigits, rfl, fun _ hnone => by cases hnone⟩
    case h_3 c rest hrest heq =>
      rw [heq] at hdigits
      refine ⟨fun b hb => hdigits b ?_, rfl, ?_⟩
      · rw [List.mem_singleton.mp hb]
        exact List.mem_cons_self
      · rintro ds ⟨⟩
        exact ⟨hrest, fun b hb => hdigits b (List.mem_cons_of_mem c hb)⟩

theorem magnitude_scientific {d : Digits} :
    Layout.scientific.magnitude d = (Numeral.ofDigits false d).chars := by
  have hpositional : Layout.scientific.positional
      (d.exponent + ((natDigits d.coefficient).length - 1 : Nat)) = true ↔ IsPositional d :=
    decide_eq_true_iff
  rw [Layout.magnitude, Numeral.ofDigits]
  by_cases h : IsPositional d
  · rw [if_pos (hpositional.mpr h), if_pos h, positionalText]
    split
    case isTrue hexponent =>
      show _ = (_ ++ _) ++ (['.', '0'] ++ [])
      rw [List.append_nil]
      rfl
    case isFalse hexponent =>
      show _ = (padded d).take (wholeLength d) ++ ('.' :: (padded d).drop (wholeLength d) ++ [])
      rw [List.append_nil]
      rfl
  · rw [if_neg (mt hpositional.mp h), if_neg h, exponentText]
    have hleading : d.exponent + ((natDigits d.coefficient).length - 1 : Nat) = leading d := rfl
    rw [hleading]
    have hmark : (if leading d < 0 then ['e', '-'] else ['e', '+']) ++
        natDigits (leading d).natAbs = exponentChars (some (leading d)) := by
      rw [exponentChars]
      split <;> rfl
    rw [List.append_assoc, hmark]
    cases hdigits : natDigits d.coefficient with
    | nil => exact absurd hdigits Nat.toDigits_ne_nil
    | cons c rest => cases rest <;> rfl

/-!
# Values of decimals
-/

def written (d : Digits) : Nat × Int :=
  if IsPositional d ∧ 0 ≤ d.exponent then (d.coefficient * 10 ^ (d.exponent.toNat + 1), -1)
  else (d.coefficient, d.exponent)

theorem number?_of_parts (negative : Bool) {whole : List Char} {fraction : Option (List Char)}
    {exponent : Option Int} {n : Nat}
    (hvalue : Nat.ofDigitChars 10 (whole ++ fraction.getD []) 0 = n) (hlt : n < wordLimit)
    (hreal : fraction.isSome ∨ exponent.isSome) :
    Numeral.number? ⟨negative, whole, fraction, exponent⟩ =
      (scale? (nearestDouble n) (exponent.getD 0 - (fraction.getD []).length)).map
        fun x => .real (if negative then -x else x) := by
  rw [Nat.ofDigitChars_append] at hvalue
  have hfraction : appendDigits (Nat.ofDigitChars 10 whole 0) (fraction.getD []) =
      (n, (fraction.getD []).length) := by
    rw [appendDigits_of_lt (by rwa [hvalue]), hvalue]
  have hwhole : appendDigits 0 whole = (Nat.ofDigitChars 10 whole 0, whole.length) := by
    refine appendDigits_of_lt (Nat.lt_of_le_of_lt ?_ hlt)
    rw [← hvalue]
    exact le_ofDigitChars _ _
  have hinteger : ¬(fraction.isNone ∧ exponent.isNone ∧ whole.length - whole.length = 0) := by
    rintro ⟨hf, he, -⟩
    rw [Option.isNone_iff_eq_none] at hf he
    subst hf he
    rcases hreal with h | h <;> cases h
  have hexponent : ((whole.length - whole.length : Nat) : Int) - (fraction.getD []).length +
      exponent.getD 0 = exponent.getD 0 - (fraction.getD []).length := by
    omega
  rw [Numeral.number?]
  dsimp only
  rw [hwhole]
  dsimp only
  rw [if_neg hinteger, hfraction]
  dsimp only
  rw [hexponent]

theorem written_lt {d : Digits} (h : IsShown d) : (written d).1 < wordLimit := by
  have hlimit : wordLimit = 18446744073709551616 := rfl
  have hle := h.le
  rw [written]
  split
  case isTrue hpositional =>
    have hsize : d.coefficient < 10 ^ (natDigits d.coefficient).length :=
      (Nat.length_toDigits_le_iff (by decide) Nat.length_toDigits_pos).mp (Nat.le_refl _)
    have hpos : 0 < (natDigits d.coefficient).length := Nat.length_toDigits_pos
    have hleading := hpositional.1.2
    rw [leading] at hleading
    calc d.coefficient * 10 ^ (d.exponent.toNat + 1)
        ≤ 10 ^ (natDigits d.coefficient).length * 10 ^ (d.exponent.toNat + 1) :=
          Nat.mul_le_mul_right _ (Nat.le_of_lt hsize)
      _ = 10 ^ ((natDigits d.coefficient).length + (d.exponent.toNat + 1)) := (Nat.pow_add ..).symm
      _ ≤ 10 ^ 17 := Nat.pow_le_pow_right (by decide) (by omega)
      _ < wordLimit := by decide
  case isFalse => omega

theorem written_pos {d : Digits} (h : 0 < d.coefficient) : 0 < (written d).1 := by
  rw [written]
  split
  · exact Nat.mul_pos h (Nat.pow_pos (by decide))
  · exact h

theorem number?_ofDigits (negative : Bool) {d : Digits} (h : IsShown d) :
    (Numeral.ofDigits negative d).number? =
      (scale? (nearestDouble (written d).1) (written d).2).map
        fun x => .real (if negative then -x else x) := by
  have hlt := written_lt h
  rw [Numeral.ofDigits]
  split
  case isTrue hpositional =>
    split
    case isTrue hexponent =>
      rw [written, if_pos ⟨hpositional, hexponent⟩] at hlt ⊢
      refine number?_of_parts negative ?_ hlt (Or.inl rfl)
      rw [Option.getD_some, Nat.ofDigitChars_append, Nat.ofDigitChars_append,
        Nat.ofDigitChars_replicate_zero]
      have hdigits : Nat.ofDigitChars 10 (natDigits d.coefficient) 0 = d.coefficient :=
        Nat.ofDigitChars_ten_toDigits
      rw [hdigits, Nat.ofDigitChars_cons, Nat.ofDigitChars_nil, Nat.pow_succ]
      show 10 * (10 ^ d.exponent.toNat * d.coefficient) + 0 = _
      ac_rfl
    case isFalse hexponent =>
      have hplaces : ((padded d).drop (wholeLength d)).length = (-d.exponent).toNat := by
        rw [List.length_drop, wholeLength, length_padded]
        omega
      rw [written, if_neg fun hboth => hexponent hboth.2] at hlt ⊢
      rw [number?_of_parts negative (n := d.coefficient) ?_ hlt (Or.inl rfl), Option.getD_none,
        Option.getD_some, hplaces]
      · have hpower : (0 : Int) - ((-d.exponent).toNat : Nat) = d.exponent := by omega
        rw [hpower]
      · rw [Option.getD_some, List.take_append_drop, ofDigitChars_padded]
  case isFalse hpositional =>
    have hdigits : Nat.ofDigitChars 10 (natDigits d.coefficient) 0 = d.coefficient :=
      Nat.ofDigitChars_ten_toDigits
    have hleading : leading d = d.exponent + ((natDigits d.coefficient).length - 1 : Nat) := rfl
    rw [written, if_neg fun hboth => hpositional hboth.1] at hlt ⊢
    split
    case h_1 heq => exact absurd heq Nat.toDigits_ne_nil
    case h_2 c heq =>
      rw [heq] at hdigits hleading
      rw [number?_of_parts negative (n := d.coefficient) hdigits hlt (Or.inr rfl), hleading]
      congr 2
      show d.exponent + 0 - 0 = d.exponent
      omega
    case h_3 c rest hrest heq =>
      rw [heq] at hdigits hleading
      rw [number?_of_parts negative (n := d.coefficient) hdigits hlt (Or.inr rfl), hleading]
      congr 2
      show d.exponent + ((rest.length + 1 - 1 : Nat) : Int) - (rest.length : Int) = d.exponent
      omega

end Json
end TransitSim
