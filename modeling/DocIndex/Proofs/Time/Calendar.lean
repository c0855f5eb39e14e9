import DocIndex.Time.Instant
import Mathlib.Data.Int.SuccPred
import Mathlib.Tactic.IntervalCases

/-!
# The calendar

The number of a date is the count of the days since 1970-01-01, year by year and month by month under the
leap rule (`Date.dayNumber_eq_daysSince1970`), and the date of a number is the one that exists and has that
number (`Date.exists?_ofDayNumber`, `Date.dayNumber_ofDayNumber`). So an instant is the sum of what its date
and its clock show (`Instant.millis_eq`).
-/

namespace DocIndex

namespace Date

theorem isLeap_iff {year : Int} :
    isLeap year = true ↔ year % 4 = 0 ∧ (year % 100 ≠ 0 ∨ year % 400 = 0) := by
  simp [isLeap]

theorem daysInMonth_le (year : Int) (month : Nat) : daysInMonth year month ≤ 31 := by
  unfold daysInMonth
  split_ifs <;> decide

/-! ### Counting days -/

/-- The length of a year. -/
def daysInYear (year : Int) : Nat := if isLeap year then 366 else 365

/-- The days of so many years from a year on. -/
def daysOfYears (year : Int) : Nat → Nat
  | 0 => 0
  | count + 1 => daysOfYears year count + daysInYear (year + count)

/-- The days from 1970-01-01 to the first day of a year, negative for the years before. -/
def daysToYear (year : Int) : Int :=
  daysOfYears 1970 (year - 1970).toNat - daysOfYears year (1970 - year).toNat

/-- The days of a year before a month. -/
def daysToMonth (year : Int) : Nat → Nat
  | 0 | 1 => 0
  | month + 2 => daysToMonth year (month + 1) + daysInMonth year (month + 1)

/-- The days from 1970-01-01 to a date. -/
def daysSince1970 (date : Date) : Int :=
  daysToYear date.year + daysToMonth date.year date.month + (date.day - 1)

/-- The first of some years may be counted apart as well as the last. -/
theorem daysOfYears_succ (year : Int) (count : Nat) :
    daysOfYears year (count + 1) = daysInYear year + daysOfYears (year + 1) count := by
  induction count with
  | zero => rw [daysOfYears, daysOfYears, daysOfYears, Nat.add_comm, Int.natCast_zero, Int.add_zero]
  | succ count ih =>
    have hlast : year + ((count + 1 : Nat) : Int) = year + 1 + count := by omega
    rw [daysOfYears, ih, daysOfYears, hlast, Nat.add_assoc]

theorem daysToYear_add_one (year : Int) : daysToYear (year + 1) = daysToYear year + daysInYear year := by
  unfold daysToYear
  by_cases h : 1970 ≤ year
  · obtain ⟨count, rfl⟩ := Int.le.dest h
    have hnext : (1970 + (count : Int) + 1 - 1970).toNat = count + 1 := by omega
    have hcount : (1970 + (count : Int) - 1970).toNat = count := by omega
    have hnone : (1970 - (1970 + (count : Int))).toNat = 0 := by omega
    have hnone' : (1970 - (1970 + (count : Int) + 1)).toNat = 0 := by omega
    rw [hnext, hcount, hnone, hnone']
    simp only [daysOfYears]
    omega
  · obtain ⟨count, hcount⟩ := Int.le.dest (show year + 1 ≤ 1970 by omega)
    have hnext : (1970 - (year + 1)).toNat = count := by omega
    have hyears : (1970 - year).toNat = count + 1 := by omega
    have hnone : (year - 1970).toNat = 0 := by omega
    have hnone' : (year + 1 - 1970).toNat = 0 := by omega
    rw [hnext, hyears, hnone, hnone', daysOfYears_succ]
    simp only [daysOfYears]
    omega

/-- From one new year to the next there are the days of the year. -/
theorem dayNumber_newYear_add_one (year : Int) :
    (Date.mk (year + 1) 1 1).dayNumber = (Date.mk year 1 1).dayNumber + daysInYear year := by
  simp only [dayNumber, daysInYear, isLeap_iff, Nat.one_le_ofNat, if_true]
  split <;> omega

theorem dayNumber_newYear (year : Int) : (Date.mk year 1 1).dayNumber = daysToYear year := by
  induction year using Int.inductionOn' (b := 1970) with
  | zero => decide
  | succ year _ ih => rw [dayNumber_newYear_add_one, daysToYear_add_one, ih]
  | pred year _ ih =>
    have hnumber := dayNumber_newYear_add_one (year - 1)
    have hdays := daysToYear_add_one (year - 1)
    rw [Int.sub_add_cancel] at hnumber hdays
    omega

/-- From a day of one month to that day of the next there are the days of the month. -/
theorem dayNumber_month_add_one (year : Int) {month : Nat} (hfirst : 1 ≤ month) (hlast : month < 12)
    (day : Nat) :
    (Date.mk year (month + 1) day).dayNumber =
      (Date.mk year month day).dayNumber + daysInMonth year month := by
  simp only [dayNumber, daysInMonth, isLeap_iff]
  interval_cases month <;> norm_num <;> (try split) <;> omega

/-- The number of a date counts the days since 1970-01-01. -/
theorem dayNumber_eq_daysSince1970 {date : Date} (hfirst : 1 ≤ date.month) (hlast : date.month ≤ 12) :
    date.dayNumber = date.daysSince1970 := by
  obtain ⟨year, month, day⟩ := date
  change 1 ≤ month at hfirst
  change month ≤ 12 at hlast
  show (Date.mk year month day).dayNumber = daysToYear year + daysToMonth year month + (day - 1)
  rw [← dayNumber_newYear]
  induction month, hfirst using Nat.le_induction with
  | base =>
    show _ = (Date.mk year 1 1).dayNumber + (0 : Nat) + (day - 1)
    simp only [dayNumber]
    omega
  | succ month hmonth ih =>
    have hsum : daysToMonth year (month + 1) = daysToMonth year month + daysInMonth year month := by
      cases month with
      | zero => cases hmonth
      | succ month => rfl
    rw [dayNumber_month_add_one year hmonth hlast, ih (Nat.le_of_succ_le hlast), hsum]
    omega

/-! ### The date of a number -/

/-- The days from March of year zero to March of a year. -/
def daysToMarch (year : Int) : Int := 365 * year + year / 4 - year / 100 + year / 400

/-- The days from March to a month, which is counted from March, from zero. -/
def daysFromMarch (month : Nat) : Nat := (153 * month + 2) / 5

/-- The year, of the 400 years of an era, that holds a day of the era. -/
def yearOfEra (day : Int) : Int := (day - day / 1460 + day / 36524 - day / 146096) / 365

theorem daysToMarch_add_one (year : Int) :
    daysToMarch (year + 1) = daysToMarch year + daysInYear (year + 1) := by
  simp only [daysToMarch, daysInYear, isLeap_iff]
  split <;> omega

/-- An era but for its last day is centuries, each of groups of four years, whose last year is longer by
a day but in the last group. -/
theorem exists_dayOfEra {day : Int} (hfirst : 0 ≤ day) (hlast : day < 146096) :
    ∃ century group year rest : Int, (0 ≤ century ∧ century < 4) ∧ (0 ≤ group ∧ group < 25) ∧
      (0 ≤ year ∧ year < 4) ∧ (0 ≤ rest ∧ rest ≤ 365 ∧ (rest = 365 → year = 3 ∧ group < 24)) ∧
      day = 36524 * century + 1461 * group + 365 * year + rest := by
  refine ⟨day / 36524, day % 36524 / 1461, min (day % 36524 % 1461 / 365) 3,
    day % 36524 % 1461 - 365 * min (day % 36524 % 1461 / 365) 3, ?_, ?_, ?_, ?_, ?_⟩ <;> omega

section

variable {century group year rest : Int} (hcentury : 0 ≤ century ∧ century < 4)
  (hgroup : 0 ≤ group ∧ group < 25) (hyear : 0 ≤ year ∧ year < 4)

include hcentury hgroup hyear

theorem daysToMarch_eq : daysToMarch (100 * century + 4 * group + year) =
    36524 * century + 1461 * group + 365 * year := by
  unfold daysToMarch
  omega

theorem yearOfEra_eq (hrest : 0 ≤ rest ∧ rest ≤ 365 ∧ (rest = 365 → year = 3 ∧ group < 24)) :
    yearOfEra (36524 * century + 1461 * group + 365 * year + rest) = 100 * century + 4 * group + year := by
  have hcenturies : (36524 * century + 1461 * group + 365 * year + rest) / 36524 = century := by omega
  have hera : (36524 * century + 1461 * group + 365 * year + rest) / 146096 = 0 := by omega
  -- 1460 is one short of four years, so the quotient may be one ahead, but only in a fourth year
  have hgroups : (36524 * century + 1461 * group + 365 * year + rest) / 1460 = 25 * century + group ∨
      (36524 * century + 1461 * group + 365 * year + rest) / 1460 = 25 * century + group + 1 ∧
        year = 3 ∧ 0 < rest := by
    omega
  unfold yearOfEra
  rw [hcenturies, hera]
  rcases hgroups with h | ⟨h, -, -⟩ <;> rw [h] <;> omega

end

/-- The year of an era that holds a day starts at or before it, and the next year starts after it. -/
theorem yearOfEra_bounds {day : Int} (hfirst : 0 ≤ day) (hlast : day < 146097) :
    (0 ≤ yearOfEra day ∧ yearOfEra day < 400) ∧
      daysToMarch (yearOfEra day) ≤ day ∧ day < daysToMarch (yearOfEra day + 1) := by
  by_cases h : day = 146096
  · rw [h]
    decide
  · obtain ⟨century, group, year, rest, hcentury, hgroup, hyear, hrest, rfl⟩ :=
      exists_dayOfEra hfirst (show day < 146096 by omega)
    rw [yearOfEra_eq hcentury hgroup hyear hrest, daysToMarch_add_one,
      daysToMarch_eq hcentury hgroup hyear]
    simp only [daysInYear, isLeap_iff]
    refine ⟨by omega, by omega, ?_⟩
    split <;> omega

/-- The month, counted from March, that holds a day of the year starts at or before it, and the next
month starts after it. -/
theorem month_bounds {day : Nat} (h : day ≤ 365) : (5 * day + 2) / 153 < 12 ∧
    daysFromMarch ((5 * day + 2) / 153) ≤ day ∧ day < daysFromMarch ((5 * day + 2) / 153 + 1) := by
  unfold daysFromMarch
  omega

/-- What the date of a number is, in years that start in March. -/
theorem ofDayNumber_cases (number : Int) :
    ∃ (year : Int) (month rest : Nat), month < 12 ∧
      number + epochOffset = daysToMarch year + (daysFromMarch month + rest : Nat) ∧
      daysFromMarch month + rest < daysFromMarch (month + 1) ∧
      number + epochOffset < daysToMarch (year + 1) ∧
      ofDayNumber number =
        ⟨if month < 10 then year else year + 1, if month < 10 then month + 3 else month - 9, rest + 1⟩ := by
  obtain ⟨⟨hzero, hera⟩, hstart, hend⟩ :=
    @yearOfEra_bounds ((number + epochOffset) % 146097) (by omega) (by omega)
  have hyear := daysToMarch_add_one (yearOfEra ((number + epochOffset) % 146097))
  have hlong : daysInYear (yearOfEra ((number + epochOffset) % 146097) + 1) ≤ 366 := by
    unfold daysInYear
    split <;> decide
  obtain ⟨day, hday⟩ := Int.eq_ofNat_of_zero_le (Int.sub_nonneg_of_le hstart)
  obtain ⟨hmonth, hbefore, hafter⟩ := month_bounds (show day ≤ 365 by omega)
  have heras : ∀ y : Int, daysToMarch (y + (number + epochOffset) / 146097 * 400) =
      daysToMarch y + (number + epochOffset) / 146097 * 146097 := by
    intro y
    unfold daysToMarch
    omega
  refine ⟨yearOfEra ((number + epochOffset) % 146097) + (number + epochOffset) / 146097 * 400,
    (5 * day + 2) / 153, day - daysFromMarch ((5 * day + 2) / 153), hmonth, ?_, by omega, ?_, ?_⟩
  · rw [heras]
    omega
  · rw [add_right_comm, heras]
    omega
  · have hrest : (number + epochOffset) % 146097 -
        (365 * yearOfEra ((number + epochOffset) % 146097) +
          yearOfEra ((number + epochOffset) % 146097) / 4 -
          yearOfEra ((number + epochOffset) % 146097) / 100) = day := by
      unfold daysToMarch at hday
      omega
    have hquotient : (5 * (day : Int) + 2) / 153 = ((5 * day + 2) / 153 : Nat) := by omega
    unfold daysFromMarch at hbefore ⊢
    simp only [ofDayNumber, ← yearOfEra.eq_1, hrest, hquotient, Date.mk.injEq]
    refine ⟨?_, ?_, by omega⟩ <;> split_ifs <;> omega

theorem dayNumber_ofDayNumber (number : Int) : (ofDayNumber number).dayNumber = number := by
  obtain ⟨year, month, rest, hmonth, hnumber, -, -, heq⟩ := ofDayNumber_cases number
  have hcount : (if month < 10 then month + 3 else month - 9) ≤ 2 ↔ ¬month < 10 := by
    split <;> omega
  have hback : ((if month < 10 then month + 3 else month - 9) + 9) % 12 = month := by
    split <;> omega
  have hyear : (if ¬month < 10 then (if month < 10 then year else year + 1) - 1
      else if month < 10 then year else year + 1) = year := by
    split <;> omega
  rw [heq]
  simp only [dayNumber, hcount, hback, hyear]
  unfold daysToMarch daysFromMarch at hnumber
  omega

/-- The months but the last, which is February, have their lengths in every year. -/
theorem daysFromMarch_add_one (year : Int) {month : Nat} (h : month < 11) :
    daysFromMarch (month + 1) =
      daysFromMarch month + daysInMonth year (if month < 10 then month + 3 else month - 9) := by
  interval_cases month <;> rfl

/-- The month and the day of the date of a number exist. -/
theorem ofDayNumber_mem (number : Int) :
    (1 ≤ (ofDayNumber number).month ∧ (ofDayNumber number).month ≤ 12) ∧
      1 ≤ (ofDayNumber number).day ∧ (ofDayNumber number).day ≤
        daysInMonth (ofDayNumber number).year (ofDayNumber number).month := by
  obtain ⟨year, month, rest, hmonth, hnumber, hrest, hend, heq⟩ := ofDayNumber_cases number
  rw [heq]
  refine ⟨by dsimp only; split <;> omega, Nat.le_add_left 1 rest, ?_⟩
  rcases Nat.lt_or_eq_of_le (Nat.le_of_lt_succ hmonth) with hother | rfl
  · rw [daysFromMarch_add_one (if month < 10 then year else year + 1) hother] at hrest
    dsimp only
    omega
  · have hfebruary : daysInYear (year + 1) = daysFromMarch 11 + daysInMonth (year + 1) 2 := by
      unfold daysInYear daysInMonth
      cases isLeap (year + 1) <;> rfl
    rw [daysToMarch_add_one, hfebruary] at hend
    show rest + 1 ≤ daysInMonth (year + 1) 2
    omega

theorem daysToMarch_lt_iff {year other : Int} : daysToMarch year < daysToMarch other ↔ year < other := by
  have hmono : StrictMono daysToMarch := strictMono_int_of_lt_succ fun year => by
    rw [daysToMarch_add_one, daysInYear]
    split <;> omega
  exact hmono.lt_iff_lt

/-- The date of a number lies in the calendar's years, from their first day to their last one. -/
theorem year_ofDayNumber {number : Int} (hfirst : (Date.mk firstYear 1 1).dayNumber ≤ number)
    (hlast : number ≤ (Date.mk lastYear 12 31).dayNumber) :
    firstYear ≤ (ofDayNumber number).year ∧ (ofDayNumber number).year ≤ lastYear := by
  obtain ⟨year, month, rest, -, hnumber, hrest, hend, heq⟩ := ofDayNumber_cases number
  have hstart : (Date.mk firstYear 1 1).dayNumber + epochOffset =
      daysToMarch (firstYear - 1) + daysFromMarch 10 := by decide
  have hfinish : (Date.mk lastYear 12 31).dayNumber + epochOffset + 1 =
      daysToMarch lastYear + daysFromMarch 10 := by decide
  have hbeyond : daysToMarch lastYear + daysFromMarch 10 < daysToMarch (lastYear + 1) := by decide
  have hfrom : firstYear - 1 < year + 1 := daysToMarch_lt_iff.mp (by omega)
  have hto : year < lastYear + 1 := daysToMarch_lt_iff.mp (by omega)
  rw [heq]
  dsimp only
  by_cases hmonth : month < 10
  · -- the tenth month from March is January, so the first of these years is over by then
    have hbefore : daysFromMarch (month + 1) ≤ daysFromMarch 10 := by
      unfold daysFromMarch
      omega
    have hyear : firstYear - 1 < year := daysToMarch_lt_iff.mp (by omega)
    rw [if_pos hmonth]
    omega
  · have hafter : daysFromMarch 10 ≤ daysFromMarch month := by
      unfold daysFromMarch
      omega
    have hyear : year < lastYear := daysToMarch_lt_iff.mp (by omega)
    rw [if_neg hmonth]
    omega

/-- The date of a number exists, from the first day of the calendar to the last one. -/
theorem exists?_ofDayNumber {number : Int} (hfirst : (Date.mk firstYear 1 1).dayNumber ≤ number)
    (hlast : number ≤ (Date.mk lastYear 12 31).dayNumber) : (ofDayNumber number).exists? = true := by
  obtain ⟨hmonth, hday⟩ := ofDayNumber_mem number
  obtain ⟨hyear, hyear'⟩ := year_ofDayNumber hfirst hlast
  exact decide_eq_true ⟨hyear, hyear', hmonth.1, hmonth.2, hday⟩

end Date

/-! ### Clocks and instants -/

namespace Clock

theorem exists?_ofMillis {millis : Nat} (h : millis < 86400000) : (ofMillis millis).exists? = true := by
  refine decide_eq_true ?_
  simp only [ofMillis]
  omega

theorem toMillis_ofMillis (millis : Nat) : (ofMillis millis).toMillis = millis := by
  simp only [ofMillis, toMillis]
  omega

end Clock

namespace Instant

theorem ofMillis?_eq_some_iff {millis : Int} {instant : Instant} :
    ofMillis? millis = some instant ↔ instant.millis = millis ∧ first ≤ millis ∧ millis ≤ last := by
  unfold ofMillis?
  constructor
  · intro h
    split at h
    · rename_i hrange
      cases h
      exact ⟨rfl, hrange⟩
    · cases h
  · rintro ⟨rfl, hrange⟩
    exact if_pos hrange

/-- With a year of at most five digits and an offset of less than a day, a local time is far inside the
calendar. -/
theorem local_mem {date : Date} {clock : Clock} {offset : Int} (hdate : date.exists? = true)
    (hyear : date.year.natAbs < 100000) (hclock : clock.exists? = true) (hoffset : offset.natAbs < 86400) :
    first ≤ date.dayNumber * millisPerDay + clock.toMillis - offset * 1000 ∧
      date.dayNumber * millisPerDay + clock.toMillis - offset * 1000 ≤ last := by
  obtain ⟨-, -, hmonth, hmonth', hday, hday'⟩ := of_decide_eq_true hdate
  obtain ⟨hhour, hminute, hsecond, hmillisecond⟩ := of_decide_eq_true hclock
  have hlength := Date.daysInMonth_le date.year date.month
  have hdays : -40000000 ≤ date.dayNumber ∧ date.dayNumber ≤ 40000000 := by
    simp only [Date.dayNumber, Date.epochOffset]
    split <;> omega
  have hfirst : first ≤ 86400000 * -40000001 := by decide
  have hlast : 86400000 * 40000002 ≤ last := by decide
  unfold Clock.toMillis millisPerDay
  omega

theorem mem_of_ofLocal? {date : Date} {clock : Clock} {offset : Int} {instant : Instant}
    (h : ofLocal? date clock offset = some instant) : first ≤ instant.millis ∧ instant.millis ≤ last := by
  obtain ⟨hmillis, hrange⟩ := ofMillis?_eq_some_iff.mp h
  rw [hmillis]
  exact hrange

/-- An instant is what its date and its clock show. -/
theorem millis_eq (instant : Instant) :
    instant.date.dayNumber * millisPerDay + instant.clock.toMillis = instant.millis := by
  rw [date, Date.dayNumber_ofDayNumber, clock, Clock.toMillis_ofMillis]
  unfold millisPerDay
  omega

theorem exists?_clock (instant : Instant) : instant.clock.exists? = true := by
  refine Clock.exists?_ofMillis ?_
  unfold millisPerDay
  omega

/-- The date and the clock of an instant of the calendar exist. -/
theorem exists?_date_and_clock {instant : Instant} (hfirst : first ≤ instant.millis)
    (hlast : instant.millis ≤ last) : instant.date.exists? = true ∧ instant.clock.exists? = true := by
  unfold first last millisPerDay at *
  refine ⟨Date.exists?_ofDayNumber ?_ ?_, exists?_clock instant⟩ <;> unfold millisPerDay <;> omega

end Instant

end DocIndex
