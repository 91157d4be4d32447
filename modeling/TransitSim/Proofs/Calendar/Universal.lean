import TransitSim.Proofs.Calendar.Civil

/-!
# Stamps in universal time

An instant is written in universal time with as many digits as it needs. The relaxed grammar reads
it back from that text, and reads nothing but instants that can be told.
-/

namespace TransitSim
namespace Calendar

open Text
open Decimal (digitsValue)
open Json (AreDigits)

/-!
# Reading back
-/

theorem exists_toList_civilText (i : Instant) :
    exists places, LosesNothing places (Civil.ofInstant i).nanos ∧
      (civilText i).toList = (Civil.ofInstant i).chars 'T' places := by
  rcases exists_fractionText (Civil.ofInstant i).nanos with ⟨places, hplaces, htext⟩
  refine ⟨places, hplaces, ?_⟩
  have hminus : "-".toList = ['-'] := rfl
  have hcolon : ":".toList = [':'] := rfl
  have hletter : "T".toList = ['T'] := rfl
  rw [Civil.chars, Civil.dateChars, Civil.timeChars, ← htext]
  simp only [civilText, String.toList_append, hminus, hcolon, hletter, List.append_assoc,
    List.cons_append]
  rfl

/-- An instant is read back from its text, with its leap second and its fraction. -/
theorem readRelaxed?_stampText {i : Instant} (h : i.Valid) :
    readRelaxed? (stampText i).toList = some i := by
  have hnanos : i.nanos < 2 * nanosPerSecond := by
    rcases h with ⟨-, -, hordinary | ⟨hleap, -⟩⟩
    · unfold nanosPerSecond at *
      omega
    · exact hleap
  rcases exists_toList_civilText i with ⟨places, hplaces, htext⟩
  have hmark : "Z".toList = ['Z'] := rfl
  rw [stampText, String.toList_append, htext, hmark,
    Civil.readRelaxed?_chars (Civil.isShown_ofInstant hnanos) hplaces]
  exact Civil.instant?_ofInstant_universal h

/-!
# What is read
-/

theorem digitsValue_lt {ds : List Char} (h : AreDigits ds) : digitsValue ds < 10 ^ ds.length := by
  have happend : ∀ n, Nat.ofDigitChars 10 ds n < (n + 1) * 10 ^ ds.length := by
    induction ds with
    | nil =>
        intro n
        simp
    | cons c ds ih =>
        intro n
        have hdigit : c.toNat - '0'.toNat ≤ 9 := by
          have hc := h c List.mem_cons_self
          simp only [Char.isDigit, Bool.and_eq_true, decide_eq_true_eq] at hc
          have hhigh : c.toNat ≤ 57 := hc.2
          have hzero : '0'.toNat = 48 := rfl
          omega
        have hrest := ih (fun d hd => h d (List.mem_cons_of_mem c hd))
          (10 * n + (c.toNat - '0'.toNat))
        rw [Nat.ofDigitChars_cons, List.length_cons, Nat.pow_succ]
        refine Nat.lt_of_lt_of_le hrest ?_
        calc (10 * n + (c.toNat - '0'.toNat) + 1) * 10 ^ ds.length
            ≤ ((n + 1) * 10) * 10 ^ ds.length := Nat.mul_le_mul_right _ (by omega)
          _ = (n + 1) * (10 ^ ds.length * 10) := by rw [Nat.mul_assoc, Nat.mul_comm 10]
  have hvalue := happend 0
  rwa [Nat.zero_add, Nat.one_mul] at hvalue

theorem fraction?_lt {cs rest : List Char} {nanos : Nat} (h : fraction? cs = some (nanos, rest)) :
    nanos < nanosPerSecond := by
  unfold fraction? at h
  split at h
  case h_1 cs =>
    dsimp only at h
    split at h
    case isTrue => cases h
    case isFalse =>
      cases h
      have hdigits : AreDigits ((cs.takeWhile Char.isDigit).take 9) := fun c hc =>
        List.all_eq_true.mp List.all_takeWhile c (List.mem_of_mem_take hc)
      have hlength := List.length_take_le 9 (cs.takeWhile Char.isDigit)
      have hvalue := digitsValue_lt hdigits
      generalize (cs.takeWhile Char.isDigit).take 9 = kept at *
      have hsecond : nanosPerSecond = 10 ^ kept.length * 10 ^ (9 - kept.length) := by
        rw [← Nat.pow_add, Nat.add_sub_cancel' hlength]
        rfl
      rw [hsecond]
      exact Nat.mul_lt_mul_of_pos_right hvalue (Nat.pow_pos (by decide))
  case h_2 =>
    cases h
    decide

theorem offset?_emod {skip : List Char → Option Rest} {cs rest : List Char} {offset : Int}
    (h : offset? skip cs = some (offset, rest)) : offset % 60 = 0 := by
  cases cs with
  | nil => cases h
  | cons c cs =>
      rw [offset?] at h
      split at h
      case isTrue =>
        cases h
        rfl
      case isFalse =>
        split at h
        case isTrue =>
          simp only [bind, Option.bind_eq_some_iff, Prod.exists] at h
          rcases h with ⟨hours, cs₁, -, cs₂, -, minutes, cs₃, -, h⟩
          split at h
          case isTrue => cases h
          case isFalse =>
            cases h
            split <;> omega
        case isFalse => cases h

theorem valid_of_instant? {date : Date} {hour minute second nanos : Nat} {offset : Int} {i : Instant}
    (hnanos : nanos < nanosPerSecond) (hoffset : offset % 60 = 0)
    (h : instant? date hour minute second nanos offset = some i) : i.Valid := by
  have hrange : ∀ {j : Instant}, j.inRange? = some i → j = i ∧ Instant.firstSecond ≤ i.seconds ∧
      i.seconds ≤ Instant.lastSecond := by
    intro j hj
    rw [Instant.inRange?] at hj
    split at hj
    case isTrue hbounds =>
      cases hj
      exact ⟨rfl, hbounds⟩
    case isFalse => cases hj
  by_cases hcivil : date.exists = true ∧ hour ≤ 23 ∧ minute ≤ 59 ∧ second ≤ 60
  · rcases hcivil with ⟨hdate, hhour, hminute, hsecond⟩
    by_cases hleap : second = 60
    · rw [hleap, instant?_leap hdate hhour hminute] at h
      rcases hrange h with ⟨rfl, hfirst, hlast⟩
      refine ⟨hfirst, hlast, Or.inr ⟨?_, ?_⟩⟩
      · dsimp only
        omega
      · unfold secondsPerDay
        dsimp only
        omega
    · rw [instant?_ordinary hdate hhour hminute (by omega)] at h
      rcases hrange h with ⟨rfl, hfirst, hlast⟩
      exact ⟨hfirst, hlast, Or.inl hnanos⟩
  · rw [instant?, if_neg hcivil] at h
    cases h

theorem valid_of_readRelaxed? {cs : List Char} {i : Instant} (h : readRelaxed? cs = some i) :
    i.Valid := by
  rw [readRelaxed?] at h
  rcases Option.bind_eq_some_iff.mp h with ⟨⟨year, cs₁⟩, -, h⟩
  rcases Option.bind_eq_some_iff.mp h with ⟨cs₂, -, h⟩
  rcases Option.bind_eq_some_iff.mp h with ⟨⟨month, cs₃⟩, -, h⟩
  rcases Option.bind_eq_some_iff.mp h with ⟨cs₄, -, h⟩
  rcases Option.bind_eq_some_iff.mp h with ⟨⟨day, cs₅⟩, -, h⟩
  rcases Option.bind_eq_some_iff.mp h with ⟨cs₆, -, h⟩
  rcases Option.bind_eq_some_iff.mp h with ⟨⟨hour, cs₇⟩, -, h⟩
  rcases Option.bind_eq_some_iff.mp h with ⟨cs₈, -, h⟩
  rcases Option.bind_eq_some_iff.mp h with ⟨⟨minute, cs₉⟩, -, h⟩
  rcases Option.bind_eq_some_iff.mp h with ⟨cs₁₀, -, h⟩
  rcases Option.bind_eq_some_iff.mp h with ⟨⟨second, cs₁₁⟩, -, h⟩
  rcases Option.bind_eq_some_iff.mp h with ⟨⟨nanos, cs₁₂⟩, hfraction, h⟩
  have hend : ∀ {offset : Int} {cs₁₃ : List Char}, offset % 60 = 0 →
      (if (trimStart cs₁₃).isEmpty = true ∧ offset.natAbs < 86400 then
        instant? ⟨year, month, day⟩ hour minute second nanos offset else none) = some i →
        i.Valid := by
    intro offset cs₁₃ hminutes h
    split at h
    case isTrue => exact valid_of_instant? (fraction?_lt hfraction) hminutes h
    case isFalse => cases h
  dsimp only at h
  split at h
  case isTrue => exact hend rfl h
  case isFalse =>
    rcases Option.bind_eq_some_iff.mp h with ⟨⟨offset, cs₁₃⟩, hoffset, h⟩
    exact hend (offset?_emod hoffset) h

theorem exists_readRelaxed?_iff {i : Instant} :
    (exists cs, readRelaxed? cs = some i) ↔ i.Valid := by
  constructor
  · intro h
    rcases h with ⟨cs, h⟩
    exact valid_of_readRelaxed? h
  · intro h
    exact ⟨(stampText i).toList, readRelaxed?_stampText h⟩

end Calendar
end TransitSim
