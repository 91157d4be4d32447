import TransitSim.Proofs.Calendar.Days
import TransitSim.Proofs.Calendar.Numbers

/-!
# Dates and times of day

What a calendar and a clock show at an instant is written in one way and read back by each of the
grammars of stamps. It is the date and the time of day of that instant only, leap seconds included.
-/

namespace TransitSim
namespace Calendar

open Text
open Json (StopsDigits)

/-- A date and a time of day. The second 60 is a leap second. -/
structure Civil where
  date : Date
  hour : Nat
  minute : Nat
  second : Nat
  nanos : Nat

namespace Civil

def ofInstant (i : Instant) : Civil :=
  let second := (i.seconds % secondsPerDay).toNat
  let leap := nanosPerSecond ≤ i.nanos
  { date := Date.ofDays (i.seconds / secondsPerDay)
    hour := second / 3600
    minute := second / 60 % 60
    second := if leap then second % 60 + 1 else second % 60
    nanos := if leap then i.nanos - nanosPerSecond else i.nanos }

def instant? (c : Civil) (offset : Int) : Option Instant :=
  Calendar.instant? c.date c.hour c.minute c.second c.nanos offset

def dateChars (c : Civil) : List Char :=
  (yearText c.date.year).toList ++ '-' :: ((padded 2 c.date.month).toList ++
    '-' :: (padded 2 c.date.day).toList)

def timeChars (places : Nat) (c : Civil) : List Char :=
  (padded 2 c.hour).toList ++ ':' :: ((padded 2 c.minute).toList ++
    ':' :: ((padded 2 c.second).toList ++ fractionChars places c.nanos))

def chars (between : Char) (places : Nat) (c : Civil) : List Char :=
  c.dateChars ++ between :: c.timeChars places

/-!
# Reading back
-/

structure IsShown (c : Civil) : Prop where
  month : c.date.month < 10 ^ 2
  day : c.date.day < 10 ^ 2
  hour : c.hour < 10 ^ 2
  minute : c.minute < 10 ^ 2
  second : c.second < 10 ^ 2
  nanos : c.nanos < nanosPerSecond

theorem number?_two {n : Nat} (h : n < 10 ^ 2) (rest : List Char) :
    number? 2 2 ((padded 2 n).toList ++ rest) = some (n, rest) :=
  number?_padded (by decide) h rest

theorem spacedNumber?_two {n : Nat} (h : n < 10 ^ 2) (rest : List Char) :
    spacedNumber? 2 ((padded 2 n).toList ++ rest) = some (n, rest) :=
  spacedNumber?_of_number? (by decide) (number?_two h rest)

theorem stopsDigits_minus (rest : List Char) : StopsDigits ('-' :: rest) := by
  intro c hc
  cases hc
  decide

theorem endsFraction_offsetChars (minutes : Int) : EndsFraction (offsetChars minutes) := by
  intro c hc
  unfold offsetChars at hc
  split at hc
  case isTrue =>
    cases hc
    decide
  case isFalse =>
    split at hc <;> cases hc <;> decide

variable {c : Civil} {places : Nat}

theorem readStrict?_chars (hc : c.IsShown) (hplaces : LosesNothing places c.nanos)
    (hyear : 0 ≤ c.date.year ∧ c.date.year ≤ 9999) {minutes : Int} (h : minutes.natAbs < 1440) :
    readStrict? (c.chars 'T' places ++ offsetChars minutes) = c.instant? (minutes * 60) := by
  have hfraction := fraction?_fractionChars hplaces hc.nanos (endsFraction_offsetChars minutes)
  have hday : (minutes * 60).natAbs < 86400 := by omega
  have hcast : (c.date.year.toNat : Int) = c.date.year := Int.toNat_of_nonneg hyear.1
  simp only [chars, dateChars, timeChars, List.append_assoc, List.cons_append, readStrict?,
    number?_yearText hyear, number?_two hc.month, number?_two hc.day, number?_two hc.hour,
    number?_two hc.minute, number?_two hc.second, hfraction, offset?_offsetChars h, expect?,
    separator?, bind, Option.bind, true_or, if_true, List.isEmpty_nil, hday, and_self, hcast]
  rfl

theorem readBare?_chars (hc : c.IsShown) (hplaces : LosesNothing places c.nanos)
    {between : List Char → Option Rest} {sign : Char}
    (h : between (sign :: c.timeChars places) = some (c.timeChars places)) :
    readBare? between (c.chars sign places) = c.instant? 0 := by
  have hfraction := fraction?_fractionChars hplaces hc.nanos
    (show EndsFraction [] by intro c hc; cases hc)
  rw [List.append_nil] at hfraction
  unfold timeChars at h
  simp only [chars, dateChars, timeChars, List.append_assoc, List.cons_append, readBare?,
    spacedYear?_yearText _ (stopsDigits_minus _), spacedNumber?_two hc.month,
    spacedNumber?_two hc.day, spacedNumber?_two hc.hour, spacedNumber?_two hc.minute,
    spacedNumber?_two hc.second, hfraction, h, expect?, bind, Option.bind, if_true,
    List.isEmpty_nil]
  rfl

theorem trimStart_timeChars (places : Nat) (c : Civil) (blanks : List Char)
    (h : ∀ b ∈ blanks, isBlank b = true) :
    trimStart (blanks ++ c.timeChars places) = c.timeChars places := by
  have hpos : 0 < (padded 2 c.hour).toList.length := by
    rw [length_padded]
    omega
  have htrim : trimStart (blanks ++ c.timeChars places) = trimStart (c.timeChars places) :=
    List.dropWhile_append_of_pos h
  rw [htrim, timeChars, trimStart_digits (areDigits_padded 2 c.hour) hpos]

theorem readRelaxed?_chars (hc : c.IsShown) (hplaces : LosesNothing places c.nanos) :
    readRelaxed? (c.chars 'T' places ++ ['Z']) = c.instant? 0 := by
  have hfraction := fraction?_fractionChars hplaces hc.nanos (endsFraction_offsetChars 0)
  have hminus : ∀ rest, trimStart ('-' :: rest) = '-' :: rest := trimStart_cons (by decide)
  have hcolon : ∀ rest, trimStart (':' :: rest) = ':' :: rest := trimStart_cons (by decide)
  have hmark : trimStart ['Z'] = ['Z'] := trimStart_cons (by decide) []
  have hend : trimStart [] = [] := rfl
  have hword : ¬((['Z'].take 3).map Char.toUpper = ['U', 'T', 'C']) := by decide
  unfold offsetChars at hfraction
  rw [if_pos rfl] at hfraction
  simp only [chars, dateChars, timeChars, List.append_assoc, List.cons_append, readRelaxed?,
    spacedYear?_yearText _ (stopsDigits_minus _), spacedNumber?_two hc.month,
    spacedNumber?_two hc.day, spacedNumber?_two hc.hour, spacedNumber?_two hc.minute,
    spacedNumber?_two hc.second, hfraction, expect?, separator?, bind, Option.bind, true_or,
    if_true, hminus, hcolon, hmark, hword, if_false, offset?, hend, List.isEmpty_nil]
  rfl

/-!
# Instants
-/

theorem isShown_ofInstant {i : Instant} (h : i.nanos < 2 * nanosPerSecond) :
    (ofInstant i).IsShown := by
  rcases isDate_ofDays (i.seconds / secondsPerDay) with ⟨-, hmonth, -, hday⟩
  have hlength := daysInMonth_le (Date.ofDays (i.seconds / secondsPerDay)).year
    (Date.ofDays (i.seconds / secondsPerDay)).month
  have hsecond : (i.seconds % secondsPerDay).toNat < 86400 := by
    unfold secondsPerDay
    omega
  constructor
  case month => exact Nat.lt_of_le_of_lt hmonth (by decide)
  case day => exact Nat.lt_of_le_of_lt (Nat.le_trans hday hlength) (by decide)
  case hour =>
    show (i.seconds % secondsPerDay).toNat / 3600 < 10 ^ 2
    omega
  case minute =>
    show (i.seconds % secondsPerDay).toNat / 60 % 60 < 10 ^ 2
    omega
  case second =>
    unfold ofInstant
    dsimp only
    split <;> omega
  case nanos =>
    unfold ofInstant
    dsimp only
    split <;> omega

theorem nanos_ofInstant {i : Instant} (h : i.nanos < nanosPerSecond) :
    (ofInstant i).nanos = i.nanos :=
  if_neg (Nat.not_le.mpr h)

end Civil

def Instant.ahead (i : Instant) (minutes : Int) : Instant :=
  ⟨i.seconds + minutes * 60, i.nanos⟩

theorem inRange?_of_valid {i : Instant} (h : i.Valid) : i.inRange? = some i :=
  if_pos ⟨h.1, h.2.1⟩

section
variable {date : Date} {hour minute : Nat}

theorem instant?_ordinary (hdate : date.exists = true) (hhour : hour ≤ 23) (hminute : minute ≤ 59)
    {second : Nat} (hsecond : second ≤ 59) (nanos : Nat) (offset : Int) :
    instant? date hour minute second nanos offset =
      Instant.inRange? ⟨date.toDays * secondsPerDay +
        (hour * 3600 + minute * 60 + second : Nat) - offset, nanos⟩ := by
  have hordinary : ¬second = 60 := by omega
  have hbound : second ≤ 60 := by omega
  rw [instant?, if_pos ⟨hdate, hhour, hminute, hbound⟩, if_neg hordinary]

theorem instant?_leap (hdate : date.exists = true) (hhour : hour ≤ 23) (hminute : minute ≤ 59)
    (nanos : Nat) (offset : Int) :
    instant? date hour minute 60 nanos offset =
      Instant.inRange? ⟨date.toDays * secondsPerDay +
        (hour * 3600 + minute * 60 + 59 : Nat) - offset, nanos + nanosPerSecond⟩ := by
  rw [instant?, if_pos ⟨hdate, hhour, hminute, Nat.le_refl 60⟩, if_pos rfl]

end

theorem Civil.instant?_ofInstant {i : Instant} (hi : i.Valid) {minutes : Int}
    (hdate : (Date.ofDays ((i.ahead minutes).seconds / secondsPerDay)).exists = true) :
    (ofInstant (i.ahead minutes)).instant? (minutes * 60) = some i := by
  have hdays := toDays_ofDays ((i.ahead minutes).seconds / secondsPerDay)
  have hlocal : (i.ahead minutes).seconds = i.seconds + minutes * 60 := rfl
  have hnanos : (i.ahead minutes).nanos = i.nanos := rfl
  have hsplit : (i.ahead minutes).seconds / secondsPerDay * secondsPerDay +
      (((i.ahead minutes).seconds % secondsPerDay).toNat : Int) = (i.ahead minutes).seconds := by
    unfold secondsPerDay
    omega
  have hbelow : ((i.ahead minutes).seconds % secondsPerDay).toNat < 86400 := by
    unfold secondsPerDay
    omega
  have hminute : (((i.ahead minutes).seconds % secondsPerDay).toNat % 60 : Int) =
      i.seconds % 60 := by
    unfold secondsPerDay
    omega
  unfold ofInstant Civil.instant?
  dsimp only
  generalize ((i.ahead minutes).seconds % secondsPerDay).toNat = second at *
  generalize (i.ahead minutes).seconds / secondsPerDay = day at *
  have hhour : second / 3600 ≤ 23 := by omega
  have hsixtieth : second / 60 % 60 ≤ 59 := by omega
  rw [hnanos]
  by_cases hleap : nanosPerSecond ≤ i.nanos
  · have hlast : second % 60 = 59 := by
      rcases hi with ⟨-, -, hordinary | ⟨-, hlast⟩⟩
      · omega
      · omega
    have hfraction : i.nanos - nanosPerSecond + nanosPerSecond = i.nanos := by omega
    have hsum : day * secondsPerDay + (second / 3600 * 3600 + second / 60 % 60 * 60 + 59 : Nat) -
        minutes * 60 = i.seconds := by
      omega
    rw [if_pos hleap, if_pos hleap, hlast, instant?_leap hdate hhour hsixtieth, hdays, hsum,
      hfraction]
    exact inRange?_of_valid hi
  · have hsum : day * secondsPerDay + (second / 3600 * 3600 + second / 60 % 60 * 60 +
        second % 60 : Nat) - minutes * 60 = i.seconds := by
      omega
    rw [if_neg hleap, if_neg hleap, instant?_ordinary hdate hhour hsixtieth (by omega), hdays, hsum]
    exact inRange?_of_valid hi

theorem Civil.instant?_ofInstant_universal {i : Instant} (hi : i.Valid) :
    (ofInstant i).instant? 0 = some i := by
  have hahead : i.ahead 0 = i := by simp [Instant.ahead]
  have hdate : (Date.ofDays ((i.ahead 0).seconds / secondsPerDay)).exists = true := by
    rw [hahead]
    exact exists_ofDays_div_iff.mpr ⟨hi.1, hi.2.1⟩
  have hread := instant?_ofInstant hi hdate
  rwa [hahead] at hread

end Calendar
end TransitSim
