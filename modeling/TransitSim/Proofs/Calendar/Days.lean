import TransitSim.Calendar.Instant

/-!
# Days and dates

The date of a day is in the calendar, and it is the date of no other day. An era of four hundred
years is cut into centuries, groups of four years, and years that begin in March. The last year of
a group has a leap day at its end, but for the last group of the first three centuries.
-/

namespace TransitSim
namespace Calendar

/-!
# The parts of an era
-/

/-- A day of an era by its century, its group of four years, its year in the group and its day in
the year, all counted from zero. -/
structure IsDayOfEra (dayOfEra century group year day : Nat) : Prop where
  century_lt : century < 4
  group_lt : group < 25
  year_lt : year < 4
  day_le : day ≤ 365
  sum : dayOfEra = 36524 * century + 1461 * group + 365 * year + day
  leap : day = 365 → year = 3 ∧ (group < 24 ∨ century = 3)

theorem exists_isDayOfEra {dayOfEra : Nat} (h : dayOfEra < 146097) :
    exists century group year day, IsDayOfEra dayOfEra century group year day := by
  have hcentury : exists century rest, century < 4 ∧ dayOfEra = 36524 * century + rest ∧
      rest ≤ 36524 ∧ (rest = 36524 → century = 3) := by
    exists min 3 (dayOfEra / 36524), dayOfEra - 36524 * min 3 (dayOfEra / 36524)
    omega
  rcases hcentury with ⟨century, rest, hcentury, hsum, hrest, hlast⟩
  have hyear : exists year day, year < 4 ∧ rest % 1461 = 365 * year + day ∧ day ≤ 365 ∧
      (day = 365 → year = 3) := by
    exists min 3 (rest % 1461 / 365), rest % 1461 - 365 * min 3 (rest % 1461 / 365)
    omega
  rcases hyear with ⟨year, day, hyear, hday, hle, hleap⟩
  exists century, rest / 1461, year, day
  constructor
  case century_lt => exact hcentury
  case group_lt => omega
  case year_lt => exact hyear
  case day_le => exact hle
  case sum => omega
  case leap =>
    intro h365
    have hthree := hleap h365
    omega

section
variable {dayOfEra century group year day : Nat}

theorem IsDayOfEra.yearOfEra_eq (h : IsDayOfEra dayOfEra century group year day) :
    (dayOfEra - dayOfEra / 1460 + dayOfEra / 36524 - dayOfEra / 146096) / 365 =
      100 * century + 4 * group + year := by
  rcases h with ⟨hcentury, hgroup, hyear, hday, hsum, hleap⟩
  have hcenturies : dayOfEra / 36524 = century + dayOfEra / 146096 := by
    by_cases hlast : dayOfEra = 146096
    · omega
    · have hbelow : dayOfEra / 36524 = century := by omega
      omega
  have hgroups :
      dayOfEra / 1460 = 25 * century + group ∧
          24 * century + group + 365 * year + day < 1460 ∨
        dayOfEra / 1460 = 25 * century + group + 1 ∧
          1460 ≤ 24 * century + group + 365 * year + day := by
    omega
  generalize dayOfEra / 36524 = centuries at *
  generalize dayOfEra / 146096 = eras at *
  generalize dayOfEra / 1460 = groups at *
  have hbounds : 365 * (100 * century + 4 * group + year) ≤ dayOfEra - groups + centuries - eras ∧
      dayOfEra - groups + centuries - eras < 365 * (100 * century + 4 * group + year) + 365 := by
    omega
  omega

theorem IsDayOfEra.dayOfYear_eq (h : IsDayOfEra dayOfEra century group year day) :
    dayOfEra - (365 * (100 * century + 4 * group + year) + (100 * century + 4 * group + year) / 4 -
      (100 * century + 4 * group + year) / 100) = day := by
  rcases h with ⟨hcentury, hgroup, hyear, -, hsum, -⟩
  have hfours : (100 * century + 4 * group + year) / 4 = 25 * century + group := by omega
  have hhundreds : (100 * century + 4 * group + year) / 100 = century := by omega
  rw [hfours, hhundreds, hsum]
  omega

end

/-!
# Years that begin in March
-/

/-- Days from the first of March of the year 0 to that of another year. -/
def daysBeforeMarch (year : Int) : Int :=
  365 * year + year / 4 - year / 100 + year / 400

def marchDate (year : Int) (day : Nat) : Date :=
  let month := (5 * day + 2) / 153
  let dayOfMonth := day - (153 * month + 2) / 5 + 1
  if month < 10 then ⟨year, month + 3, dayOfMonth⟩ else ⟨year + 1, month - 9, dayOfMonth⟩

theorem daysBeforeMarch_era (era : Int) {century group year : Nat} (hcentury : century < 4)
    (hgroup : group < 25) (hyear : year < 4) :
    daysBeforeMarch (era * 400 + (100 * century + 4 * group + year : Nat)) =
      era * daysInEra + 36524 * century + 1461 * group + 365 * year := by
  have hfours : (era * 400 + (100 * century + 4 * group + year : Nat)) / 4 =
      era * 100 + 25 * century + group := by
    omega
  have hhundreds : (era * 400 + (100 * century + 4 * group + year : Nat)) / 100 =
      era * 4 + century := by
    omega
  have heras : (era * 400 + (100 * century + 4 * group + year : Nat)) / 400 = era := by omega
  rw [daysBeforeMarch, hfours, hhundreds, heras, daysInEra]
  omega

theorem exists_ofDays_eq (days : Int) :
    exists (year : Int) (day : Nat), Date.ofDays days = marchDate year day ∧
      days + daysBeforeEpoch = daysBeforeMarch year + day ∧ day ≤ 365 ∧
        (day = 365 → isLeapYear (year + 1) = true) := by
  have hlt : ((days + daysBeforeEpoch) % daysInEra).toNat < 146097 := by
    unfold daysInEra
    omega
  rcases exists_isDayOfEra hlt with ⟨century, group, year, day, hparts⟩
  exists (days + daysBeforeEpoch) / daysInEra * 400 + (100 * century + 4 * group + year : Nat), day
  have hyear := hparts.yearOfEra_eq
  have hday := hparts.dayOfYear_eq
  refine ⟨?_, ?_, hparts.day_le, ?_⟩
  · simp only [Date.ofDays, hyear, hday, marchDate]
  · have hsum := hparts.sum
    rw [daysBeforeMarch_era _ hparts.century_lt hparts.group_lt hparts.year_lt]
    unfold daysInEra at hsum ⊢
    omega
  · intro h365
    rcases hparts.leap h365 with ⟨rfl, hlast⟩
    have hgroup := hparts.group_lt
    have hcentury := hparts.century_lt
    generalize (days + daysBeforeEpoch) / daysInEra = era
    simp only [isLeapYear, Bool.and_eq_true, Bool.or_eq_true, beq_iff_eq, bne_iff_ne]
    omega

/-!
# Dates of days
-/

theorem daysBeforeMarch_split (year : Int) :
    year / 400 * daysInEra + (year % 400 * 365 + year % 400 / 4 - year % 400 / 100) =
      daysBeforeMarch year := by
  have hfours : year / 4 = year / 400 * 100 + year % 400 / 4 := by omega
  have hhundreds : year / 100 = year / 400 * 4 + year % 400 / 100 := by omega
  rw [daysBeforeMarch, hfours, hhundreds, daysInEra]
  omega

theorem toDays_marchDate (year : Int) {day : Nat} (h : day ≤ 365) :
    (marchDate year day).toDays = daysBeforeMarch year + day - daysBeforeEpoch := by
  rw [← daysBeforeMarch_split]
  unfold marchDate
  dsimp only
  split
  case isTrue hmonth =>
    have hlate : ¬(5 * day + 2) / 153 + 3 ≤ 2 := by omega
    have hday : dayOfMarchYear ((5 * day + 2) / 153 + 3 - 3)
        (day - (153 * ((5 * day + 2) / 153) + 2) / 5 + 1) = day := by
      unfold dayOfMarchYear
      omega
    simp only [Date.toDays, if_neg hlate, hday]
    omega
  case isFalse hmonth =>
    have hearly : (5 * day + 2) / 153 - 9 ≤ 2 := by omega
    have hyear : year + 1 - 1 = year := by omega
    have hday : dayOfMarchYear ((5 * day + 2) / 153 - 9 + 9)
        (day - (153 * ((5 * day + 2) / 153) + 2) / 5 + 1) = day := by
      unfold dayOfMarchYear
      omega
    simp only [Date.toDays, if_pos hearly, hyear, hday]
    omega

theorem daysInMonth_of_ne {month : Nat} (h : month ≠ 2) (year : Int) :
    daysInMonth year month =
      if month = 4 ∨ month = 6 ∨ month = 9 ∨ month = 11 then 30 else 31 := by
  unfold daysInMonth
  split <;> simp_all

theorem isDate_marchDate {year : Int} {day : Nat} (h : day ≤ 365)
    (hleap : day = 365 → isLeapYear (year + 1) = true) :
    1 ≤ (marchDate year day).month ∧ (marchDate year day).month ≤ 12 ∧
      1 ≤ (marchDate year day).day ∧
        (marchDate year day).day ≤ daysInMonth (marchDate year day).year
          (marchDate year day).month := by
  unfold marchDate
  dsimp only
  split
  case isTrue hmonth =>
    dsimp only
    rw [daysInMonth_of_ne (by omega)]
    refine ⟨by omega, by omega, by omega, ?_⟩
    split <;> omega
  case isFalse hmonth =>
    dsimp only
    refine ⟨by omega, by omega, by omega, ?_⟩
    by_cases hjanuary : (5 * day + 2) / 153 = 10
    · rw [daysInMonth_of_ne (by omega), if_neg (by omega)]
      omega
    · have hfebruary : (5 * day + 2) / 153 - 9 = 2 := by omega
      have hlength : daysInMonth (year + 1) 2 = if isLeapYear (year + 1) then 29 else 28 := rfl
      rw [hfebruary, hlength]
      by_cases hlast : day = 365
      · rw [if_pos (hleap hlast)]
        omega
      · split <;> omega

theorem daysInMonth_le (year : Int) (month : Nat) : daysInMonth year month ≤ 31 := by
  unfold daysInMonth
  split
  case h_1 => split <;> decide
  all_goals decide

theorem isDate_ofDays (days : Int) :
    1 ≤ (Date.ofDays days).month ∧ (Date.ofDays days).month ≤ 12 ∧ 1 ≤ (Date.ofDays days).day ∧
      (Date.ofDays days).day ≤ daysInMonth (Date.ofDays days).year (Date.ofDays days).month := by
  rcases exists_ofDays_eq days with ⟨year, day, heq, -, hday, hleap⟩
  rw [heq]
  exact isDate_marchDate hday hleap

theorem toDays_ofDays (days : Int) : (Date.ofDays days).toDays = days := by
  rcases exists_ofDays_eq days with ⟨year, day, heq, hsum, hday, -⟩
  rw [heq, toDays_marchDate year hday, ← hsum]
  omega

/-!
# Years of days
-/

def firstDay (year : Int) : Int := (Date.mk year 1 1).toDays

theorem firstDay_eq (year : Int) :
    firstDay year = daysBeforeMarch (year - 1) + 306 - daysBeforeEpoch := by
  have hdate : Date.mk year 1 1 = marchDate (year - 1) 306 := by
    have hyear : year - 1 + 1 = year := by omega
    show _ = Date.mk (year - 1 + 1) 1 1
    rw [hyear]
  rw [firstDay, hdate, toDays_marchDate _ (by decide)]
  rfl

theorem daysBeforeMarch_succ (year : Int) :
    daysBeforeMarch year + 365 ≤ daysBeforeMarch (year + 1) := by
  unfold daysBeforeMarch
  omega

theorem daysBeforeMarch_of_lt {a b : Int} (h : a < b) :
    daysBeforeMarch a + 365 ≤ daysBeforeMarch b := by
  have hsteps : ∀ n : Nat, daysBeforeMarch a + 365 ≤ daysBeforeMarch (a + 1 + n) := by
    intro n
    induction n with
    | zero => simpa using daysBeforeMarch_succ a
    | succ n ih =>
        have hsucc := daysBeforeMarch_succ (a + 1 + n)
        have hnext : a + 1 + (n + 1 : Nat) = a + 1 + n + 1 := by omega
        rw [hnext]
        omega
  have hb : b = a + 1 + (b - a - 1).toNat := by omega
  rw [hb]
  exact hsteps _

theorem le_year_ofDays_iff {year days : Int} :
    year ≤ (Date.ofDays days).year ↔ firstDay year ≤ days := by
  rcases exists_ofDays_eq days with ⟨march, day, heq, hsum, hday, -⟩
  have hyear : (marchDate march day).year = if day < 306 then march else march + 1 := by
    unfold marchDate
    dsimp only
    by_cases hmonth : (5 * day + 2) / 153 < 10
    · rw [if_pos hmonth, if_pos (by omega)]
    · rw [if_neg hmonth, if_neg (by omega)]
  rw [heq, hyear, firstDay_eq]
  rcases Int.lt_trichotomy (year - 1) march with hlt | heq | hgt
  · have hlater := daysBeforeMarch_of_lt hlt
    split <;> omega
  · rw [heq]
    split <;> omega
  · have hlater := daysBeforeMarch_of_lt hgt
    split <;> omega

theorem exists_ofDays_iff {days : Int} :
    (Date.ofDays days).exists = true ↔
      firstYear ≤ (Date.ofDays days).year ∧ (Date.ofDays days).year ≤ lastYear := by
  rcases isDate_ofDays days with ⟨hmonth, hmonth', hday, hday'⟩
  simp only [Date.exists, Bool.and_eq_true, decide_eq_true_eq]
  constructor
  · intro h
    rcases h with ⟨⟨⟨⟨⟨hfirst, hlast⟩, -⟩, -⟩, -⟩, -⟩
    exact ⟨hfirst, hlast⟩
  · intro h
    rcases h with ⟨hfirst, hlast⟩
    exact ⟨⟨⟨⟨⟨hfirst, hlast⟩, hmonth⟩, hmonth'⟩, hday⟩, hday'⟩

/-- Seconds that can be told are those of the days whose dates exist. -/
theorem exists_ofDays_div_iff {seconds : Int} :
    (Date.ofDays (seconds / secondsPerDay)).exists = true ↔
      Instant.firstSecond ≤ seconds ∧ seconds ≤ Instant.lastSecond := by
  have hfirst : Instant.firstSecond = firstDay firstYear * secondsPerDay := rfl
  have hlast : Instant.lastSecond = firstDay (lastYear + 1) * secondsPerDay - 1 := by decide
  have hbelow : (Date.ofDays (seconds / secondsPerDay)).year ≤ lastYear ↔
      ¬firstDay (lastYear + 1) ≤ seconds / secondsPerDay := by
    rw [← le_year_ofDays_iff]
    omega
  rw [exists_ofDays_iff, le_year_ofDays_iff, hbelow, hfirst, hlast]
  unfold secondsPerDay
  omega

end Calendar
end TransitSim
