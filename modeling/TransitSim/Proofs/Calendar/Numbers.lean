import TransitSim.Calendar.Stamp
import TransitSim.Proofs.Json.Numerals

/-!
# Numbers of a stamp

The numbers of a stamp are written with leading zeros and read up to a width. A number of the full
width is read in the same way by a reader that asks for its width and by one that allows fewer
digits and blanks in front.
-/

namespace TransitSim
namespace Calendar

open Decimal Text
open Json (AreDigits StopsDigits areDigits_natDigits digitsValue_natDigits)

/-!
# Numbers with leading zeros
-/

theorem toList_padded (width n : Nat) :
    (padded width n).toList =
      List.replicate (width - (natDigits n).length) '0' ++ natDigits n := by
  rw [padded, String.toList_ofList]
  rfl

theorem areDigits_padded (width n : Nat) : AreDigits (padded width n).toList := by
  intro c hc
  rw [toList_padded] at hc
  rcases List.mem_append.mp hc with hzero | hdigit
  · rw [List.eq_of_mem_replicate hzero]
    decide
  · exact areDigits_natDigits n c hdigit

theorem length_padded (width n : Nat) :
    (padded width n).toList.length = max width (natDigits n).length := by
  rw [toList_padded, List.length_append, List.length_replicate]
  omega

theorem length_padded_of_lt {width n : Nat} (hwidth : 0 < width) (h : n < 10 ^ width) :
    (padded width n).toList.length = width := by
  have hlength : (natDigits n).length ≤ width :=
    (Nat.length_toDigits_le_iff (by decide) hwidth).mpr h
  rw [length_padded]
  exact Nat.max_eq_left hlength

theorem digitsValue_padded (width n : Nat) : digitsValue (padded width n).toList = n := by
  show Nat.ofDigitChars 10 (padded width n).toList 0 = n
  rw [toList_padded, Nat.ofDigitChars_append, Nat.ofDigitChars_replicate_zero, Nat.mul_zero]
  exact digitsValue_natDigits n

/-!
# Reading digits up to a width
-/

theorem takeWhile_take_append {ds rest : List Char} {most : Nat} (hds : AreDigits ds)
    (hmost : ds.length ≤ most) (hstops : ds.length = most ∨ StopsDigits rest) :
    ((ds ++ rest).take most).takeWhile Char.isDigit = ds := by
  have htake : (ds ++ rest).take most = ds ++ rest.take (most - ds.length) := by
    rw [List.take_append, List.take_of_length_le hmost]
  have hnone : (rest.take (most - ds.length)).takeWhile Char.isDigit = [] := by
    rcases hstops with hfull | hstops
    · rw [hfull, Nat.sub_self]
      rfl
    · cases rest with
      | nil => rw [List.take_nil, List.takeWhile_nil]
      | cons c rest =>
          have hc : c.isDigit = false := hstops c rfl
          cases most - ds.length with
          | zero => rfl
          | succ k => exact List.takeWhile_cons_of_neg (Bool.not_eq_true _ ▸ hc)
  rw [htake, List.takeWhile_append_of_pos hds, hnone, List.append_nil]

theorem number?_append {least most : Nat} {ds : List Char} (rest : List Char) (hds : AreDigits ds)
    (hleast : least ≤ ds.length) (hmost : ds.length ≤ most)
    (hstops : ds.length = most ∨ StopsDigits rest) :
    number? least most (ds ++ rest) = some (digitsValue ds, rest) := by
  rw [number?, takeWhile_take_append hds hmost hstops, if_neg (Nat.not_lt.mpr hleast), List.drop_left]
  rfl

theorem number?_padded {width n : Nat} (hwidth : 0 < width) (h : n < 10 ^ width)
    (rest : List Char) :
    number? width width ((padded width n).toList ++ rest) = some (n, rest) := by
  have hlength := length_padded_of_lt hwidth h
  rw [number?_append rest (areDigits_padded width n) (Nat.le_of_eq hlength.symm)
    (Nat.le_of_eq hlength) (Or.inl hlength), digitsValue_padded]

theorem number?_eq_some {width : Nat} {cs rest : List Char} {n : Nat}
    (h : number? width width cs = some (n, rest)) :
    exists ds, cs = ds ++ rest ∧ AreDigits ds ∧ ds.length = width ∧ n = digitsValue ds := by
  unfold number? at h
  dsimp only at h
  split at h
  case isTrue => cases h
  case isFalse hlength =>
    cases h
    exists (cs.take width).takeWhile Char.isDigit
    have hprefix : (cs.take width).takeWhile Char.isDigit <+: cs :=
      (List.takeWhile_prefix _).trans (List.take_prefix width cs)
    have hle : ((cs.take width).takeWhile Char.isDigit).length ≤ width :=
      Nat.le_trans (List.takeWhile_prefix _).length_le (List.length_take_le width cs)
    refine ⟨?_, ?_, Nat.le_antisymm hle (Nat.le_of_not_lt hlength), rfl⟩
    · exact (List.prefix_iff_eq_append.mp hprefix).symm
    · exact List.all_eq_true.mp List.all_takeWhile

/-!
# Blanks in front
-/

theorem isBlank_of_isDigit {c : Char} (h : c.isDigit = true) : isBlank c = false := by
  simp only [Char.isDigit, Bool.and_eq_true, decide_eq_true_eq] at h
  have hlow : 48 ≤ c.toNat := h.1
  have hhigh : c.toNat ≤ 57 := h.2
  simp only [isBlank, blankRanges, List.any_cons, List.any_nil, Bool.or_false, Bool.or_eq_false_iff,
    Bool.and_eq_false_iff, decide_eq_false_iff_not]
  omega

theorem trimStart_cons {c : Char} (h : isBlank c = false) (cs : List Char) :
    trimStart (c :: cs) = c :: cs :=
  List.dropWhile_cons_of_neg (Bool.not_eq_true _ ▸ h)

theorem trimStart_digits {ds : List Char} (hds : AreDigits ds) (hpos : 0 < ds.length)
    (rest : List Char) : trimStart (ds ++ rest) = ds ++ rest := by
  cases ds with
  | nil => cases hpos
  | cons c ds => exact trimStart_cons (isBlank_of_isDigit (hds c List.mem_cons_self)) _

theorem spacedNumber?_of_number? {width : Nat} {cs rest : List Char} {n : Nat} (hwidth : 0 < width)
    (h : number? width width cs = some (n, rest)) : spacedNumber? width cs = some (n, rest) := by
  rcases number?_eq_some h with ⟨ds, rfl, hds, hlength, rfl⟩
  rw [spacedNumber?, trimStart_digits hds (by omega)]
  exact number?_append rest hds (by omega) (by omega) (Or.inl hlength)

theorem spacedYear?_of_number? {cs rest : List Char} {n : Nat}
    (h : number? 4 4 cs = some (n, rest)) : spacedYear? cs = some ((n : Int), rest) := by
  have hspaced := spacedNumber?_of_number? (by decide) h
  rcases number?_eq_some h with ⟨ds, rfl, hds, hlength, -⟩
  rw [spacedNumber?, trimStart_digits hds (by omega)] at hspaced
  rw [spacedYear?, trimStart_digits hds (by omega)]
  split
  case h_1 heq =>
    cases ds with
    | nil => cases hlength
    | cons c ds =>
        cases heq
        exact absurd (hds '-' List.mem_cons_self) (by decide)
  case h_2 heq =>
    cases ds with
    | nil => cases hlength
    | cons c ds =>
        cases heq
        exact absurd (hds '+' List.mem_cons_self) (by decide)
  case h_3 =>
    rw [hspaced]
    rfl

/-!
# Years
-/

theorem spacedYear?_minus (cs : List Char) :
    spacedYear? ('-' :: cs) =
      (number? 1 cs.length cs).map fun (n, rest) => (-(n : Int), rest) := by
  rw [spacedYear?, trimStart_cons (by decide)]
  rfl

theorem spacedYear?_plus (cs : List Char) :
    spacedYear? ('+' :: cs) =
      (number? 1 cs.length cs).map fun (n, rest) => ((n : Int), rest) := by
  rw [spacedYear?, trimStart_cons (by decide)]
  rfl

theorem spacedYear?_yearText (year : Int) {rest : List Char} (h : StopsDigits rest) :
    spacedYear? ((yearText year).toList ++ rest) = some (year, rest) := by
  have hsigned : ∀ n : Nat, number? 1 ((padded 4 n).toList ++ rest).length
      ((padded 4 n).toList ++ rest) = some (n, rest) := by
    intro n
    have hlength := length_padded 4 n
    rw [number?_append rest (areDigits_padded 4 n) (by omega)
      (by rw [List.length_append]; omega) (Or.inr h), digitsValue_padded]
  rw [yearText]
  split
  case isTrue hfour =>
    have hread := number?_padded (by decide) (show year.toNat < 10 ^ 4 by omega) rest
    rw [spacedYear?_of_number? hread, Int.toNat_of_nonneg hfour.1]
  case isFalse hfour =>
    rw [String.toList_append]
    by_cases hnegative : year < 0
    · have hvalue : -(year.natAbs : Int) = year := by omega
      have hminus : "-".toList = ['-'] := rfl
      rw [if_pos hnegative, hminus, List.append_assoc, List.singleton_append, spacedYear?_minus,
        hsigned, Option.map_some]
      dsimp only
      rw [hvalue]
    · have hvalue : (year.natAbs : Int) = year := by omega
      have hplus : "+".toList = ['+'] := rfl
      rw [if_neg hnegative, hplus, List.append_assoc, List.singleton_append, spacedYear?_plus,
        hsigned, Option.map_some]
      dsimp only
      rw [hvalue]

theorem number?_yearText {year : Int} (h : 0 ≤ year ∧ year ≤ 9999) (rest : List Char) :
    number? 4 4 ((yearText year).toList ++ rest) = some (year.toNat, rest) := by
  rw [yearText, if_pos h]
  exact number?_padded (by decide) (show year.toNat < 10 ^ 4 by omega) rest

/-!
# Fractions
-/

def fractionChars (places nanos : Nat) : List Char :=
  if places = 0 then [] else '.' :: (padded places (nanos / 10 ^ (9 - places))).toList

/-- Whether a number of digits, at most nine, is enough for a fraction. -/
def LosesNothing (places nanos : Nat) : Prop :=
  places ≤ 9 ∧ 10 ^ (9 - places) ∣ nanos

instance (places nanos : Nat) : Decidable (LosesNothing places nanos) :=
  inferInstanceAs (Decidable (places ≤ 9 ∧ 10 ^ (9 - places) ∣ nanos))

def EndsFraction (cs : List Char) : Prop := ∀ c ∈ cs.head?, c.isDigit = false ∧ c ≠ '.'

theorem fraction?_of_endsFraction {rest : List Char} (h : EndsFraction rest) :
    fraction? rest = some (0, rest) := by
  unfold fraction?
  split
  case h_1 => exact absurd rfl (h '.' rfl).2
  case h_2 => rfl

theorem fraction?_digits {ds rest : List Char} (hds : AreDigits ds) (hpos : 0 < ds.length)
    (hlength : ds.length ≤ 9) (hrest : EndsFraction rest) :
    fraction? ('.' :: (ds ++ rest)) = some (digitsValue ds * 10 ^ (9 - ds.length), rest) := by
  have hstops : StopsDigits rest := fun c hc => (hrest c hc).1
  have hspan := Json.spanDigits_append hds hstops
  have htake : (ds ++ rest).takeWhile Char.isDigit = ds := congrArg Prod.fst hspan
  have hdrop : (ds ++ rest).dropWhile Char.isDigit = rest := congrArg Prod.snd hspan
  have hne : ds.isEmpty = false := by
    rw [List.isEmpty_eq_false_iff]
    exact List.ne_nil_of_length_pos hpos
  simp only [fraction?, htake, hdrop, hne, Bool.false_eq_true, if_false,
    List.take_of_length_le hlength]
  rfl

theorem fraction?_fractionChars {places nanos : Nat} (hplaces : LosesNothing places nanos)
    (hnanos : nanos < nanosPerSecond) {rest : List Char} (hrest : EndsFraction rest) :
    fraction? (fractionChars places nanos ++ rest) = some (nanos, rest) := by
  have hsecond : nanosPerSecond = 10 ^ 9 := rfl
  rcases hplaces with ⟨hle, hdvd⟩
  rw [fractionChars]
  by_cases hzero : places = 0
  · have hnone : nanos = 0 := by
      rw [hzero] at hdvd
      exact Nat.eq_zero_of_dvd_of_lt hdvd hnanos
    rw [if_pos hzero, hnone]
    exact fraction?_of_endsFraction hrest
  · have hlt : nanos / 10 ^ (9 - places) < 10 ^ places := by
      rw [Nat.div_lt_iff_lt_mul (Nat.pow_pos (by decide)), ← Nat.pow_add,
        show places + (9 - places) = 9 by omega, ← hsecond]
      exact hnanos
    have hlength := length_padded_of_lt (Nat.pos_of_ne_zero hzero) hlt
    rw [if_neg hzero, List.cons_append, fraction?_digits (areDigits_padded _ _) (by omega)
      (by omega) hrest, digitsValue_padded, hlength, Nat.div_mul_cancel hdvd]

theorem exists_fractionText (nanos : Nat) :
    exists places, LosesNothing places nanos ∧
      (fractionText nanos).toList = fractionChars places nanos := by
  unfold fractionText
  split
  case isTrue hzero =>
    exists 0
    rw [hzero]
    exact ⟨⟨by decide, Nat.dvd_zero _⟩, rfl⟩
  case isFalse =>
    split
    case isTrue hmillis =>
      exists 3
      exact ⟨⟨by decide, Nat.dvd_of_mod_eq_zero hmillis⟩, by rw [String.toList_append]; rfl⟩
    case isFalse =>
      split
      case isTrue hmicros =>
        exists 6
        exact ⟨⟨by decide, Nat.dvd_of_mod_eq_zero hmicros⟩, by rw [String.toList_append]; rfl⟩
      case isFalse =>
        exists 9
        refine ⟨⟨by decide, Nat.one_dvd nanos⟩, ?_⟩
        rw [String.toList_append, fractionChars, if_neg (by decide), Nat.sub_self, Nat.pow_zero,
          Nat.div_one]
        rfl

/-!
# Offsets
-/

def offsetChars (minutes : Int) : List Char :=
  if minutes = 0 then ['Z']
  else (if minutes < 0 then '-' else '+') :: ((padded 2 (minutes.natAbs / 60)).toList ++
    ':' :: (padded 2 (minutes.natAbs % 60)).toList)

theorem offset?_offsetChars {minutes : Int} (h : minutes.natAbs < 1440) :
    offset? (expect? ':') (offsetChars minutes) = some (minutes * 60, []) := by
  have hhours := number?_padded (by decide) (show minutes.natAbs / 60 < 10 ^ 2 by omega)
    (':' :: (padded 2 (minutes.natAbs % 60)).toList)
  have hminutes := number?_padded (by decide) (show minutes.natAbs % 60 < 10 ^ 2 by omega) []
  have hbelow : ¬59 < minutes.natAbs % 60 := by omega
  have hsign : '-' ≠ '+' := by decide
  rw [List.append_nil] at hminutes
  rw [offsetChars]
  by_cases hzero : minutes = 0
  · rw [if_pos hzero, hzero]
    rfl
  · rw [if_neg hzero]
    by_cases hnegative : minutes < 0
    · rw [if_pos hnegative, offset?, if_neg (by decide), if_pos (by decide)]
      simp only [hhours, hminutes, expect?, bind, Option.bind, if_true, hbelow, if_false,
        hsign, Option.some.injEq, Prod.mk.injEq, and_true]
      omega
    · rw [if_neg hnegative, offset?, if_neg (by decide), if_pos (by decide)]
      simp only [hhours, hminutes, expect?, bind, Option.bind, if_true, hbelow, if_false,
        Option.some.injEq, Prod.mk.injEq, and_true]
      omega

end Calendar
end TransitSim
