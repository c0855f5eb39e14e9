import DocIndex.Interpreted.Apply
import DocIndex.Proofs.Number.Binary64
import DocIndex.Proofs.Text.Digit
import DocIndex.Proofs.Time.Calendar

/-!
# Timestamps, read back

The texts of a timestamp show one date and one clock (`Timestamp.Shows`, `Timestamp.Shows.unique`), and those
of an instant show its own (`Timestamp.shows_ofInstant`). So the components of a number of milliseconds add up
to that number again, and different numbers have different components
(`Timestamp.millis_of_shown_components`).
-/

namespace DocIndex

/-- A text is a number in exactly `width` decimal digits. -/
def Text.Spells (width n : Nat) (text : List Char) : Prop :=
  text.length = width ∧ Text.natural? text = some n

instance (width n : Nat) (text : List Char) : Decidable (Text.Spells width n text) :=
  inferInstanceAs (Decidable (_ ∧ _))

theorem Text.spells_padded {width n : Nat} (hwidth : 0 < width) (h : n < 10 ^ width) :
    Text.Spells width n (Text.padded width n) :=
  ⟨Text.length_padded hwidth h, Text.natural?_padded width n⟩

theorem Text.Spells.unique {width n m : Nat} {text : List Char} (h : Text.Spells width n text)
    (h' : Text.Spells width m text) : n = m :=
  Option.some.inj (h.2.symm.trans h'.2)

namespace Timestamp

/-! ### What the texts show -/

/-- A text is a year: from 0 to 9999 four digits, otherwise the sign and six digits. -/
def ShowsYear (year : Int) (text : List Char) : Prop :=
  if 0 ≤ year ∧ year ≤ 9999 then Text.Spells 4 year.toNat text
  else ∃ digits, text = (if year < 0 then '-' else '+') :: digits ∧ Text.Spells 6 year.natAbs digits

/-- The texts of a timestamp are those of a date and a clock. -/
structure Shows (t : Timestamp) (date : Date) (clock : Clock) : Prop where
  year : ShowsYear date.year t.year.toList
  month : Text.Spells 2 date.month t.month.toList
  day : Text.Spells 2 date.day t.day.toList
  hour : Text.Spells 2 clock.hour t.hour.toList
  minute : Text.Spells 2 clock.minute t.minute.toList
  second : Text.Spells 2 clock.second t.second.toList
  millisecond : Text.Spells 3 clock.millisecond t.millisecond.toList

theorem ShowsYear.unique {year other : Int} {text : List Char} (h : ShowsYear year text)
    (h' : ShowsYear other text) : year = other := by
  unfold ShowsYear at h h'
  split at h <;> split at h'
  · have heq := h.unique h'
    omega
  · obtain ⟨digits, rfl, hlength, -⟩ := h'
    have hfour := h.1
    rw [List.length_cons, hlength] at hfour
    cases hfour
  · obtain ⟨digits, rfl, hlength, -⟩ := h
    have hfour := h'.1
    rw [List.length_cons, hlength] at hfour
    cases hfour
  · obtain ⟨digits, rfl, hdigits⟩ := h
    obtain ⟨digits', heq, hdigits'⟩ := h'
    obtain ⟨hsign, rfl⟩ := List.cons.inj heq
    have habs := hdigits.unique hdigits'
    split at hsign <;> split at hsign
    · omega
    · cases hsign
    · cases hsign
    · omega

/-- The texts of a timestamp show one date and one clock only. -/
theorem Shows.unique {t : Timestamp} {date date' : Date} {clock clock' : Clock} (h : t.Shows date clock)
    (h' : t.Shows date' clock') : date = date' ∧ clock = clock' := by
  obtain ⟨year, month, day⟩ := date
  obtain ⟨year', month', day'⟩ := date'
  obtain ⟨hour, minute, second, millisecond⟩ := clock
  obtain ⟨hour', minute', second', millisecond'⟩ := clock'
  rw [Date.mk.injEq, Clock.mk.injEq]
  exact ⟨⟨h.year.unique h'.year, h.month.unique h'.month, h.day.unique h'.day⟩, h.hour.unique h'.hour,
    h.minute.unique h'.minute, h.second.unique h'.second, h.millisecond.unique h'.millisecond⟩

theorem showsYear_yearText {year : Int} (hleast : -999999 ≤ year) (hmost : year ≤ 999999) :
    ShowsYear year (yearText year).toList := by
  unfold ShowsYear yearText
  split
  · rename_i hfour
    rw [padded, String.toList_ofList]
    exact Text.spells_padded (by decide) (by omega)
  · rw [String.toList_ofList]
    exact ⟨_, rfl, Text.spells_padded (by decide) (by omega)⟩

/-- The texts of an instant show its date and its clock, if its year has no more than six digits. -/
theorem shows_of_year {instant : Instant} (hleast : -999999 ≤ instant.date.year)
    (hmost : instant.date.year ≤ 999999) : (ofInstant instant).Shows instant.date instant.clock := by
  obtain ⟨⟨-, hmonth⟩, -, hday⟩ := Date.ofDayNumber_mem (instant.millis / Instant.millisPerDay)
  rw [← Instant.date] at hmonth hday
  obtain ⟨hhour, hminute, hsecond, hmillisecond⟩ := of_decide_eq_true instant.exists?_clock
  have hmonthLength := Date.daysInMonth_le instant.date.year instant.date.month
  constructor
  · exact showsYear_yearText hleast hmost
  all_goals
    simp only [ofInstant, padded, String.toList_ofList]
    exact Text.spells_padded (by decide) (by omega)

/-- The texts of an instant of the calendar show its date and its clock. -/
theorem shows_ofInstant {instant : Instant} (hfirst : Instant.first ≤ instant.millis)
    (hlast : instant.millis ≤ Instant.last) : (ofInstant instant).Shows instant.date instant.clock := by
  obtain ⟨hdate, -⟩ := Instant.exists?_date_and_clock hfirst hlast
  obtain ⟨hyear, hyear', -⟩ := of_decide_eq_true hdate
  unfold Date.firstYear at hyear
  unfold Date.lastYear at hyear'
  exact shows_of_year (by omega) (by omega)

/-- What the texts of an instant of the calendar show adds up to the instant. -/
theorem exists_shown_ofInstant {instant : Instant} (hfirst : Instant.first ≤ instant.millis)
    (hlast : instant.millis ≤ Instant.last) :
    ∃ date clock, (ofInstant instant).Shows date clock ∧ date.exists? = true ∧ clock.exists? = true ∧
      86400000 * date.daysSince1970 + clock.toMillis = instant.millis := by
  obtain ⟨hdate, hclock⟩ := Instant.exists?_date_and_clock hfirst hlast
  obtain ⟨-, -, hmonth, hmonth', -⟩ := of_decide_eq_true hdate
  refine ⟨instant.date, instant.clock, shows_ofInstant hfirst hlast, hdate, hclock, ?_⟩
  rw [← Date.dayNumber_eq_daysSince1970 hmonth hmonth', Int.mul_comm]
  exact instant.millis_eq

end Timestamp

/-! ### Numbers of milliseconds -/

/-- An integer within the limit is an instant, if the calendar reaches it, and no other is. -/
theorem Instant.ofNumber?_int (n : Int) :
    ofNumber? (.int n) = if n.natAbs ≤ numberLimit then ofMillis? n else none := by
  have hlimit : numberLimit < 2 ^ 53 := by decide
  have hdouble : Number.toDouble? (.int n) = Binary64.ofInt? n := rfl
  rw [ofNumber?, hdouble]
  by_cases h : n.natAbs < 2 ^ 53
  · obtain ⟨x, hx, htrunc, habs⟩ := Binary64.exists_ofInt? h
    rw [hx]
    simp only [habs, htrunc]
  · rw [if_neg (show ¬n.natAbs ≤ numberLimit by omega)]
    cases hx : Binary64.ofInt? n with
    | none => rfl
    | some x =>
      have hfar := Binary64.absLe_of_ofInt? hx (Nat.le_of_not_lt h) hlimit
      simp only [hfar]
      rfl

/-- What a transform of timestamps gives for a value. -/
theorem Transform.apply_temporal {transform : Transform} (h : transform.isTemporal = true)
    (options : Options) (value : Json) : transform.apply options (.plain value) =
      ((Timestamp.ofJson? value).map fun t => .plain (t.component options transform)).getD .failed := by
  have hvalue : transform.onValue? options value =
      (Timestamp.ofJson? value).map fun t => t.component options transform := if_pos h
  rw [apply, Interpreted.payload, hvalue]
  cases Timestamp.ofJson? value <;> rfl

namespace Timestamp

/-- What the components of an integer show is that number of milliseconds. -/
theorem exists_shown_of_ofJson?_int {n : Int} {t : Timestamp} (h : ofJson? (.num (.int n)) = some t) :
    ∃ date clock, t.Shows date clock ∧ date.exists? = true ∧ clock.exists? = true ∧
      86400000 * date.daysSince1970 + clock.toMillis = n := by
  obtain ⟨instant, hinstant, rfl⟩ := Option.map_eq_some_iff.mp h
  have hread : Instant.ofNumber? (.int n) = some instant := hinstant
  rw [Instant.ofNumber?_int] at hread
  split at hread
  · obtain ⟨rfl, hfirst, hlast⟩ := Instant.ofMillis?_eq_some_iff.mp hread
    exact exists_shown_ofInstant hfirst hlast
  · cases hread

/-- The seven texts of the key make up the timestamp. -/
theorem eq_of_strings_datetime {t u : Timestamp} (h : Json.strings t.datetime = .strings u.datetime) :
    t = u := by
  obtain ⟨year, month, day, hour, minute, second, millisecond⟩ := t
  obtain ⟨year', month', day', hour', minute', second', millisecond'⟩ := u
  simp only [Json.strings, datetime, date, time, List.cons_append, List.nil_append, List.map_cons,
    List.map_nil, Json.arr.injEq, List.cons.injEq, Json.str.injEq, and_true] at h
  rw [mk.injEq]
  exact h

/-- **The components of a number of milliseconds are exact.** Let the integer `n` be a timestamp. Its
texts show a year in four digits or in a sign and six, a month, a day of that month, and hours, minutes,
seconds and milliseconds below their limits, and counted in days of the calendar since 1970-01-01 they add
up to `n`. So no other number has the key that `n` has under the transform `datetime`. -/
theorem millis_of_shown_components {n : Int} {t : Timestamp} (h : ofJson? (.num (.int n)) = some t) :
    (∃ (year : Int) (month day hour minute second millisecond : Nat),
      t.Shows ⟨year, month, day⟩ ⟨hour, minute, second, millisecond⟩ ∧
      (1 ≤ month ∧ month ≤ 12) ∧ (1 ≤ day ∧ day ≤ Date.daysInMonth year month) ∧
      (hour < 24 ∧ minute < 60 ∧ second < 60 ∧ millisecond < 1000) ∧
      86400000 * Date.daysSince1970 ⟨year, month, day⟩ + 3600000 * hour + 60000 * minute +
        1000 * second + millisecond = n) ∧
    ∀ (m : Int) (options : Options), m ≠ n →
      Transform.datetime.apply options (.plain (.num (.int m))) ≠
        Transform.datetime.apply options (.plain (.num (.int n))) := by
  obtain ⟨⟨year, month, day⟩, ⟨hour, minute, second, millisecond⟩, hshows, hdate, hclock, hsum⟩ :=
    exists_shown_of_ofJson?_int h
  refine ⟨?_, fun m options hne heq => ?_⟩
  · obtain ⟨-, -, hmonth, hmonth', hday, hday'⟩ := of_decide_eq_true hdate
    refine ⟨year, month, day, hour, minute, second, millisecond, hshows, ⟨hmonth, hmonth'⟩, ⟨hday, hday'⟩,
      of_decide_eq_true hclock, ?_⟩
    simp only [Clock.toMillis] at hsum
    omega
  · rw [Transform.apply_temporal rfl, Transform.apply_temporal rfl, h] at heq
    cases hu : ofJson? (.num (.int m)) with
    | none =>
      rw [hu] at heq
      cases heq
    | some u =>
      rw [hu] at heq
      obtain rfl : u = t := eq_of_strings_datetime (Interpreted.plain.inj heq)
      obtain ⟨date, clock, hshows', -, -, hsum'⟩ := exists_shown_of_ofJson?_int hu
      obtain ⟨rfl, rfl⟩ := hshows.unique hshows'
      exact hne (hsum'.symm.trans hsum)

/-- The last millisecond of a leap day before year zero. -/
theorem shown_components_leapDay :
    ofJson? (.num (.int (-62288265600001))) = some ⟨"-000004", "02", "29", "23", "59", "59", "999"⟩ ∧
      86400000 * Date.daysSince1970 ⟨-4, 2, 29⟩ + 3600000 * 23 + 60000 * 59 + 1000 * 59 + 999 =
        -62288265600001 ∧
      Transform.datetime.apply .default (.plain (.num (.int (-62288265600000)))) ≠
        Transform.datetime.apply .default (.plain (.num (.int (-62288265600001)))) := by
  have hread : ofJson? (.num (.int (-62288265600001))) =
      some ⟨"-000004", "02", "29", "23", "59", "59", "999"⟩ := by decide +kernel
  obtain ⟨⟨year, month, day, hour, minute, second, millisecond, hshows, -, -, -, hsum⟩, hothers⟩ :=
    millis_of_shown_components hread
  have hexact : Shows ⟨"-000004", "02", "29", "23", "59", "59", "999"⟩ ⟨-4, 2, 29⟩ ⟨23, 59, 59, 999⟩ :=
    ⟨⟨_, rfl, by decide⟩, by decide, by decide, by decide, by decide, by decide, by decide⟩
  obtain ⟨hdate, hclock⟩ := hshows.unique hexact
  cases hdate
  cases hclock
  exact ⟨hread, hsum, hothers _ .default (by decide)⟩

end Timestamp

end DocIndex
