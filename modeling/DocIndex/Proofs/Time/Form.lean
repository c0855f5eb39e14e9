import DocIndex.Proofs.Text.Digit
import DocIndex.Proofs.Time.Calendar
import DocIndex.Time.Reader

/-!
# Written timestamps

The forms in which a timestamp is written out in full: a date of up to three parts, perhaps a time of two or
three parts with a fraction, perhaps an offset from UTC. Every number has its exact width, so a form is
given by its numbers, and it stands for the point of time that they spell (`Form.millis`).
-/

namespace DocIndex.Time

open Text (padded)

/-! ### Dates -/

/-- A date with one, two or three parts. -/
inductive DateForm where
  /-- `YYYY`. -/
  | year (year : Fin 10000)
  /-- `YYYY-MM`. -/
  | month (year : Fin 10000) (month : Fin 100)
  /-- `YYYY-MM-DD`. -/
  | day (year : Fin 10000) (month day : Fin 100)

namespace DateForm

/-- The text of a date. -/
def text : DateForm → List Char
  | year y => padded 4 y
  | month y m => padded 4 y ++ '-' :: padded 2 m
  | day y m d => padded 4 y ++ '-' :: (padded 2 m ++ '-' :: padded 2 d)

/-- The date that is meant; a missing part is the first. -/
def date : DateForm → Date
  | year y => ⟨y.val, 1, 1⟩
  | month y m => ⟨y.val, m, 1⟩
  | day y m d => ⟨y.val, m, d⟩

end DateForm

/-! ### Times -/

/-- The seconds of a time, and the digits of their fraction. -/
structure SecondForm where
  /-- The seconds. -/
  second : Fin 100
  /-- The digits of the fraction; without any there is no point either. -/
  fraction : List (Fin 10)

namespace SecondForm

/-- The character of a digit. -/
def digitText (digit : Fin 10) : Char := Nat.digitChar digit.val

/-- The text of a fraction. -/
def fractionText : List (Fin 10) → List Char
  | [] => []
  | digit :: digits => '.' :: digitText digit :: digits.map digitText

/-- The text of seconds. -/
def text (s : SecondForm) : List Char := padded 2 s.second ++ fractionText s.fraction

/-- The milliseconds of a fraction: its first three digits, a missing one being zero. -/
def millisecond (s : SecondForm) : Nat :=
  100 * s.fraction.getD 0 0 + 10 * s.fraction.getD 1 0 + s.fraction.getD 2 0

end SecondForm

/-- A time with two or three parts. -/
structure ClockForm where
  /-- The hours. -/
  hour : Fin 100
  /-- The minutes. -/
  minute : Fin 100
  /-- The seconds, if they are written. -/
  second : Option SecondForm

namespace ClockForm

/-- The text of a time. -/
def text (c : ClockForm) : List Char :=
  padded 2 c.hour ++ ':' :: (padded 2 c.minute ++
    match c.second with
    | some s => ':' :: s.text
    | none => [])

/-- The time of day that is meant. -/
def clock (c : ClockForm) : Clock :=
  match c.second with
  | some s => ⟨c.hour, c.minute, s.second, s.millisecond⟩
  | none => ⟨c.hour, c.minute, 0, 0⟩

/-- Whether hours, minutes and seconds are below their limits. -/
def inRange (c : ClockForm) : Bool :=
  decide (c.hour.val < 24 ∧ c.minute.val < 60) && c.second.all fun s => decide (s.second.val < 60)

/-- Hours, minutes or seconds are out of range, where second 60 is a leap second. -/
def OutOfRange (c : ClockForm) : Prop :=
  24 ≤ c.hour.val ∨ 60 ≤ c.minute.val ∨ ∃ s ∈ c.second, 60 < s.second.val

end ClockForm

/-! ### Offsets -/

/-- How far a time is ahead of UTC. -/
inductive ZoneForm where
  /-- Nothing, which means UTC. -/
  | none
  /-- `Z`. -/
  | utc
  /-- A sign, hours and minutes, with a colon between them or without. -/
  | offset (negative colon : Bool) (hour minute : Fin 100)

namespace ZoneForm

/-- The text of an offset after its sign. -/
def unsignedText (colon : Bool) (hour minute : Fin 100) : List Char :=
  padded 2 hour ++ if colon then ':' :: padded 2 minute else padded 2 minute

/-- The text of an offset. -/
def text : ZoneForm → List Char
  | none => []
  | utc => ['Z']
  | offset negative colon hour minute =>
    (if negative then '-' else '+') :: unsignedText colon hour minute

/-- The offset in seconds. -/
def seconds : ZoneForm → Int
  | none | utc => 0
  | offset negative _ hour minute =>
    if negative then -((hour.val * 3600 + minute.val * 60 : Nat) : Int)
    else (hour.val * 3600 + minute.val * 60 : Nat)

/-- Whether the parts of an offset are below their limits. -/
def inRange : ZoneForm → Bool
  | none | utc => true
  | offset _ _ hour minute => decide (hour.val < 24 ∧ minute.val < 60)

/-- Whether an offset has sixty minutes or more and is below a day all the same. -/
def overflows : ZoneForm → Bool
  | none | utc => false
  | offset _ _ hour minute => decide (60 ≤ minute.val ∧ 60 * hour.val + minute.val < 1440)

end ZoneForm

/-! ### Timestamps -/

/-- A date, perhaps with a time. -/
structure Form where
  /-- The date. -/
  date : DateForm
  /-- The time and its offset; without one it is midnight in UTC. -/
  time : Option (ClockForm × ZoneForm)

namespace Form

/-- The text after the date. -/
def timeText : Option (ClockForm × ZoneForm) → List Char
  | some (clock, zone) => 'T' :: (clock.text ++ zone.text)
  | none => []

/-- The text of a timestamp. -/
def text (form : Form) : List Char := form.date.text ++ timeText form.time

/-- The time of day that is meant. -/
def clock (form : Form) : Clock :=
  match form.time with
  | some (clock, _) => clock.clock
  | none => Clock.midnight

/-- The offset in seconds. -/
def offset (form : Form) : Int :=
  match form.time with
  | some (_, zone) => zone.seconds
  | none => 0

/-- The milliseconds from 1970-01-01T00:00:00Z to the point of time that is meant. -/
def millis (form : Form) : Int :=
  86400000 * form.date.date.daysSince1970 + form.clock.toMillis - 1000 * form.offset

/-- Whether the date exists and every part of the time and of the offset is below its limit. -/
def inRange (form : Form) : Bool :=
  form.date.date.exists? &&
    match form.time with
    | some (clock, zone) => clock.inRange && zone.inRange
    | none => true

/-- Whether the minutes of the offset are all that is out of range, and the whole offset is below a day. -/
def overflows (form : Form) : Bool :=
  form.date.date.exists? &&
    match form.time with
    | some (clock, zone) => clock.inRange && zone.overflows
    | none => false

end Form

/-! ### What is in range -/

/-- A month that no year has, or a day that the month does not have. -/
theorem DateForm.exists?_day_eq_false {year : Fin 10000} {month day : Fin 100}
    (h : (month.val < 1 ∨ 12 < month.val) ∨
      (day.val < 1 ∨ Date.daysInMonth year.val month.val < day.val)) :
    (DateForm.day year month day).date.exists? = false := by
  refine decide_eq_false fun hdate => ?_
  obtain ⟨-, -, hmonth⟩ : _ ∧ _ ∧ 1 ≤ month.val ∧ month.val ≤ 12 ∧ 1 ≤ day.val ∧
    day.val ≤ Date.daysInMonth year.val month.val := hdate
  omega

theorem SecondForm.millisecond_lt (s : SecondForm) : s.millisecond < 1000 := by
  unfold millisecond
  omega

theorem ClockForm.exists?_clock (c : ClockForm) : c.clock.exists? = c.inRange := by
  obtain ⟨hour, minute, _ | s⟩ := c
  · simp [clock, inRange, Clock.exists?]
  · have hmillisecond := s.millisecond_lt
    simp [clock, inRange, Clock.exists?, hmillisecond, Bool.and_assoc]

theorem ClockForm.OutOfRange.inRange_eq_false {c : ClockForm} (h : c.OutOfRange) : c.inRange = false := by
  rw [inRange, Bool.and_eq_false_iff, decide_eq_false_iff_not]
  rcases h with hhour | hminute | ⟨s, hs, hsecond⟩
  · exact .inl (by omega)
  · exact .inl (by omega)
  · have hlate : decide (s.second.val < 60) = false := decide_eq_false (by omega)
    rw [hs]
    exact .inr hlate

theorem ZoneForm.natAbs_seconds_lt {zone : ZoneForm} (h : zone.inRange = true) :
    zone.seconds.natAbs < 86400 := by
  cases zone with
  | none => decide
  | utc => decide
  | offset negative colon hour minute =>
    obtain ⟨hhour, hminute⟩ : hour.val < 24 ∧ minute.val < 60 := of_decide_eq_true h
    cases negative <;> simp only [seconds] <;> omega

theorem Form.limits_of_inRange {form : Form} (h : form.inRange = true) :
    form.date.date.exists? = true ∧ form.clock.exists? = true ∧ form.offset.natAbs < 86400 := by
  obtain ⟨date, _ | ⟨clock, zone⟩⟩ := form
  · have hzero : Int.natAbs 0 < 86400 := by decide
    exact ⟨(Bool.and_eq_true_iff.mp h).1, rfl, hzero⟩
  · obtain ⟨hdate, htime⟩ := Bool.and_eq_true_iff.mp h
    obtain ⟨hclock, hzone⟩ := Bool.and_eq_true_iff.mp htime
    exact ⟨hdate, clock.exists?_clock.trans hclock, ZoneForm.natAbs_seconds_lt hzone⟩

/-- An offset that is out of range is below a day only if it is its minutes that are out of range. -/
theorem ZoneForm.overflows_iff {zone : ZoneForm} (h : zone.inRange = false) :
    zone.overflows = true ↔ zone.seconds.natAbs < 86400 := by
  cases zone with
  | none => cases h
  | utc => cases h
  | offset negative colon hour minute =>
    have hlimits : ¬(hour.val < 24 ∧ minute.val < 60) := of_decide_eq_false h
    have hseconds : (offset negative colon hour minute).seconds.natAbs =
        3600 * hour.val + 60 * minute.val := by
      cases negative <;> simp only [seconds] <;> omega
    rw [overflows, decide_eq_true_iff, hseconds]
    omega

/-- Of the timestamps that are out of range, those that overflow have a date that exists, a time that does,
and an offset below a day. -/
theorem Form.overflows_iff {date : DateForm} {clock : ClockForm} {zone : ZoneForm}
    (h : date.date.exists? = false ∨ clock.OutOfRange ∨ zone.inRange = false) :
    overflows ⟨date, some (clock, zone)⟩ = true ↔
      date.date.exists? = true ∧ clock.clock.exists? = true ∧ zone.seconds.natAbs < 86400 := by
  have hoverflows : overflows ⟨date, some (clock, zone)⟩ =
      (date.date.exists? && (clock.inRange && zone.overflows)) := rfl
  rw [hoverflows, Bool.and_eq_true_iff, Bool.and_eq_true_iff, clock.exists?_clock]
  refine and_congr_right fun hdate => and_congr_right fun hclock => ZoneForm.overflows_iff ?_
  rcases h with hdate' | hclock' | hzone
  · exact absurd hdate (Bool.eq_false_iff.mp hdate')
  · exact absurd hclock (Bool.eq_false_iff.mp hclock'.inRange_eq_false)
  · exact hzone

end DocIndex.Time
