import TransitSim.Calendar.Offset
import TransitSim.Proofs.Text.Delimiter

/-!
# What a clock shows

Different minutes of the day have different texts. A colon ends the hour, and the half of the day
is the last three characters, so that all parts can be read back.
-/

namespace TransitSim
namespace Calendar

theorem ofDigitChars_toString (n : Nat) : Nat.ofDigitChars 10 (toString n).toList 0 = n := by
  rw [Nat.toString_eq_repr, Nat.toList_repr, Nat.ofDigitChars_ten_toDigits]

theorem ofDigitChars_twoDigits (n : Nat) : Nat.ofDigitChars 10 (twoDigits n).toList 0 = n := by
  rw [twoDigits]
  split <;> simp [Nat.ofDigitChars_cons]

theorem colon_not_mem_toString (n : Nat) : ':' ∉ (toString n).toList := by
  intro hmem
  rw [Nat.toString_eq_repr, Nat.toList_repr] at hmem
  have hdigit := Nat.isDigit_of_mem_toDigits (by decide) (by decide) hmem
  exact absurd hdigit (by decide)

def shownHour (minute : Nat) : Nat :=
  if minute / 60 % 12 = 0 then 12 else minute / 60 % 12

def half (minute : Nat) : String :=
  if minute / 60 < 12 then " AM" else " PM"

theorem length_half (minute : Nat) : (half minute).toList.length = 3 := by
  rw [half]
  split <;> rfl

theorem half_inj {a b : Nat} (h : half a = half b) : a / 60 < 12 ↔ b / 60 < 12 := by
  rw [half, half] at h
  by_cases ha : a / 60 < 12 <;> by_cases hb : b / 60 < 12
  · exact iff_of_true ha hb
  · rw [if_pos ha, if_neg hb] at h
    exact absurd h (by decide)
  · rw [if_neg ha, if_pos hb] at h
    exact absurd h (by decide)
  · exact iff_of_false ha hb

theorem toList_clockText (minute : Nat) :
    (clockText minute).toList = (toString (shownHour minute)).toList ++
      ':' :: ((twoDigits (minute % 60)).toList ++ (half minute).toList) := by
  simp only [clockText, shownHour, half, String.toList_append, List.append_assoc]
  rfl

theorem clockText_inj {a b : Nat} (ha : a < 1440) (hb : b < 1440)
    (h : clockText a = clockText b) : a = b := by
  have hchars := congrArg String.toList h
  rw [toList_clockText, toList_clockText] at hchars
  rcases eq_of_append_delimiter (colon_not_mem_toString _) (colon_not_mem_toString _) hchars with
    ⟨hhour, hrest⟩
  rcases List.append_inj' hrest ((length_half a).trans (length_half b).symm) with ⟨hminute, hhalf⟩
  have hshown : shownHour a = shownHour b := by
    rw [← ofDigitChars_toString (shownHour a), hhour, ofDigitChars_toString]
  have hsixtieth : a % 60 = b % 60 := by
    rw [← ofDigitChars_twoDigits (a % 60), hminute, ofDigitChars_twoDigits]
  have hsame : a / 60 < 12 ↔ b / 60 < 12 := half_inj (String.toList_injective hhalf)
  simp only [shownHour] at hshown
  split at hshown <;> split at hshown <;> omega

theorem minuteOfDay_lt (offset : Offset) (i : Instant) : minuteOfDay offset i < 1440 := by
  simp only [minuteOfDay, secondsPerDay]
  omega

theorem clockTime_eq_iff {offset : Offset} {i j : Instant} :
    clockTime offset i = clockTime offset j ↔ minuteOfDay offset i = minuteOfDay offset j :=
  ⟨clockText_inj (minuteOfDay_lt offset i) (minuteOfDay_lt offset j), congrArg clockText⟩

end Calendar
end TransitSim
