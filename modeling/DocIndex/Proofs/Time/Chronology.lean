import DocIndex.Proofs.Text.Order
import DocIndex.Proofs.Time.Timestamp

/-!
# The order of timestamps

Dates and clocks, each compared from their largest part to their smallest, are in the order of their
numbers (`Date.order_ofDayNumber`, `Clock.order_ofMillis`). Digits of one width are in the order of the
numbers that they spell (`Text.Spells.compareBytes_eq`), so the texts of a timestamp are in the order of
what they show, and the keys of timestamps with years of four digits are in the order of their instants
(`Timestamp.compareTexts_keys`).
-/

namespace DocIndex

/-! ### Digits -/

namespace Text

/-- Of two texts of as many digits, the one that comes first spells the smaller number. A number read so
far that is smaller stays smaller, whatever the digits after it. -/
theorem foldl_digits_lt {a b : List Char} {ds es : List Nat} (ha : takeDigits a = (ds, []))
    (hb : takeDigits b = (es, [])) (hlength : a.length = b.length) {n m : Nat}
    (h : n < m ∨ n = m ∧ precedes a b = true) :
    ds.foldl (fun n d => n * 10 + d) n < es.foldl (fun n d => n * 10 + d) m := by
  induction a generalizing b ds es n m with
  | nil =>
    obtain rfl := List.length_eq_zero_iff.mp hlength.symm
    cases ha
    cases hb
    rcases h with hlt | ⟨-, hnil⟩
    · exact hlt
    · cases hnil
  | cons c a ih =>
    cases b with
    | nil => cases hlength
    | cons d b =>
      obtain ⟨x, xs, hx, hxs, rfl⟩ := exists_of_takeDigits_cons ha
      obtain ⟨y, ys, hy, hys, rfl⟩ := exists_of_takeDigits_cons hb
      refine ih hxs hys (Nat.succ.inj hlength) ?_
      dsimp only
      rcases h with hlt | ⟨rfl, hprecedes⟩
      · exact .inl (by omega)
      · rcases precedes_cons_iff.mp hprecedes with hless | ⟨rfl, hrest⟩
        · exact .inl (by omega)
        · exact .inr ⟨by omega, hrest⟩

theorem Spells.lt_of_precedes {width n m : Nat} {a b : List Char} (ha : Spells width n a)
    (hb : Spells width m b) (h : precedes a b = true) : n < m := by
  obtain ⟨ds, hds, rfl⟩ := takeDigits_of_natural? ha.2
  obtain ⟨es, hes, rfl⟩ := takeDigits_of_natural? hb.2
  exact foldl_digits_lt hds hes (ha.1.trans hb.1.symm) (.inr ⟨rfl, h⟩)

/-- Digits of one width are in the order of the numbers that they spell. -/
theorem Spells.compareBytes_eq {width n m : Nat} {a b : String} (ha : Spells width n a.toList)
    (hb : Spells width m b.toList) : compareBytes a b = compare n m := by
  rcases precedes_trichotomy a.toList b.toList with hlt | heq | hgt
  · rw [compareBytes_of_precedes hlt, Nat.compare_eq_lt.mpr (ha.lt_of_precedes hb hlt)]
  · obtain rfl := String.toList_inj.mp heq
    obtain rfl := ha.unique hb
    rw [compareBytes_self, Nat.compare_eq_eq.mpr rfl]
  · rw [compareBytes_of_follows hgt, Nat.compare_eq_gt.mpr (hb.lt_of_precedes ha hgt)]

end Text

/-! ### Dates and clocks -/

/-- An order of the values of a function is the order of its arguments, if it says less wherever that one
does. -/
theorem order_eq_compare {α β : Type} [LinearOrder α] {order : β → β → Ordering} {f : α → β}
    (hswap : ∀ x y, (order x y).swap = order y x) (hless : ∀ {a b : α}, a < b → order (f a) (f b) = .lt)
    (a b : α) : order (f a) (f b) = compare a b := by
  rcases lt_trichotomy a b with hlt | rfl | hgt
  · rw [hless hlt, compare_lt_iff_lt.mpr hlt]
  · have hself := hswap (f a) (f a)
    rw [compare_eq_iff_eq.mpr rfl]
    cases horder : order (f a) (f a) with
    | eq => rfl
    | lt | gt =>
      rw [horder] at hself
      cases hself
  · rw [← hswap, hless hgt, compare_gt_iff_gt.mpr hgt]
    rfl

theorem compare_toNat {a b : Int} (ha : 0 ≤ a) (hb : 0 ≤ b) : compare a.toNat b.toNat = compare a b := by
  rcases Int.lt_trichotomy a b with hlt | rfl | hgt
  · rw [Int.compare_eq_lt.mpr hlt, Nat.compare_eq_lt.mpr (by omega)]
  · rw [Int.compare_eq_eq.mpr rfl, Nat.compare_eq_eq.mpr rfl]
  · rw [Int.compare_eq_gt.mpr hgt, Nat.compare_eq_gt.mpr (by omega)]

namespace Date

/-- The order of two dates by their years, then by their months, then by their days. -/
def order (a b : Date) : Ordering :=
  (compare a.year b.year).then ((compare a.month b.month).then (compare a.day b.day))

theorem swap_order (a b : Date) : (a.order b).swap = b.order a := by
  simp only [order, Ordering.swap_then, Int.compare_swap, Nat.compare_swap]

theorem order_eq_lt_iff {a b : Date} : a.order b = .lt ↔
    a.year < b.year ∨ a.year = b.year ∧ (a.month < b.month ∨ a.month = b.month ∧ a.day < b.day) := by
  simp only [order, Ordering.then_eq_lt, Int.compare_eq_lt, Int.compare_eq_eq, Nat.compare_eq_lt,
    Nat.compare_eq_eq]

theorem order_eq_lt_of_lt {a b : Int} (h : a < b) : (ofDayNumber a).order (ofDayNumber b) = .lt := by
  obtain ⟨year, month, rest, hmonth, hnumber, hrest, hend, heq⟩ := ofDayNumber_cases a
  obtain ⟨year', month', rest', hmonth', hnumber', hrest', hend', heq'⟩ := ofDayNumber_cases b
  -- in years that start in March each part is counted within the one before it
  have hyear : ¬year' < year := by
    intro hlater
    have hmarch : daysToMarch (year' + 1) ≤ daysToMarch year := by
      rw [← Int.not_lt, daysToMarch_lt_iff]
      omega
    omega
  have hlex : year < year' ∨ year = year' ∧ (month < month' ∨ month = month' ∧ rest < rest') := by
    rcases Int.lt_or_eq_of_le (Int.not_lt.mp hyear) with hless | rfl
    · exact .inl hless
    · unfold daysFromMarch at *
      omega
  rw [order_eq_lt_iff, heq, heq']
  dsimp only
  split_ifs <;> omega

/-- The dates of two numbers are in the order of the numbers. -/
theorem order_ofDayNumber (a b : Int) : (ofDayNumber a).order (ofDayNumber b) = compare a b :=
  order_eq_compare swap_order order_eq_lt_of_lt a b

end Date

namespace Clock

/-- The order of two clocks by their hours, then by their minutes, seconds and milliseconds. -/
def order (a b : Clock) : Ordering :=
  (compare a.hour b.hour).then ((compare a.minute b.minute).then
    ((compare a.second b.second).then (compare a.millisecond b.millisecond)))

theorem swap_order (a b : Clock) : (a.order b).swap = b.order a := by
  simp only [order, Ordering.swap_then, Nat.compare_swap]

theorem order_eq_lt_of_lt {a b : Nat} (h : a < b) : (ofMillis a).order (ofMillis b) = .lt := by
  simp only [order, ofMillis, Ordering.then_eq_lt, Nat.compare_eq_lt, Nat.compare_eq_eq]
  omega

/-- The times of day at two numbers of milliseconds are in the order of the numbers. -/
theorem order_ofMillis (a b : Nat) : (ofMillis a).order (ofMillis b) = compare a b :=
  order_eq_compare swap_order order_eq_lt_of_lt a b

end Clock

namespace Instant

/-- The clocks of two instants are in the order of the milliseconds of their days. -/
theorem order_clock (i j : Instant) :
    i.clock.order j.clock = compare (i.millis % millisPerDay) (j.millis % millisPerDay) := by
  rw [clock, clock, Clock.order_ofMillis]
  unfold millisPerDay
  exact compare_toNat (by omega) (by omega)

/-- Two instants are in the order of their dates, and on one day in the order of their clocks. -/
theorem compare_millis (i j : Instant) :
    compare i.millis j.millis = (i.date.order j.date).then (i.clock.order j.clock) := by
  refine (@order_eq_compare Int Instant _
    (fun i j => (i.date.order j.date).then (i.clock.order j.clock)) mk ?_ ?_ i.millis j.millis).symm
  · intro i j
    rw [Ordering.swap_then, Date.swap_order, Clock.swap_order]
  · intro a b h
    simp only [date, clock, Date.order_ofDayNumber, Clock.order_ofMillis, Ordering.then_eq_lt,
      Int.compare_eq_lt, Int.compare_eq_eq, Nat.compare_eq_lt, millisPerDay]
    omega

end Instant

namespace Timestamp

open Text (compareTexts)

theorem ShowsYear.spells {year : Int} {text : List Char} (h : ShowsYear year text)
    (hyear : 0 ≤ year ∧ year ≤ 9999) : Text.Spells 4 year.toNat text := by
  unfold ShowsYear at h
  rwa [if_pos hyear] at h

section

variable {t u : Timestamp} {date date' : Date} {clock clock' : Clock} (ht : t.Shows date clock)
  (hu : u.Shows date' clock')

include ht hu

/-- The texts of two dates whose years have four digits are in the order of the dates. -/
theorem compareTexts_date (hyear : 0 ≤ date.year ∧ date.year ≤ 9999)
    (hyear' : 0 ≤ date'.year ∧ date'.year ≤ 9999) :
    compareTexts t.date u.date = date.order date' := by
  simp only [compareTexts, Timestamp.date, List.compareLex_cons_cons, List.compareLex_nil_nil,
    Ordering.then_eq, Date.order, ← compare_toNat hyear.1 hyear'.1,
    (ht.year.spells hyear).compareBytes_eq (hu.year.spells hyear'), ht.month.compareBytes_eq hu.month,
    ht.day.compareBytes_eq hu.day]

/-- The texts of two clocks are in the order of the clocks. -/
theorem compareTexts_time : compareTexts t.time u.time = clock.order clock' := by
  simp only [compareTexts, time, List.compareLex_cons_cons, List.compareLex_nil_nil, Ordering.then_eq,
    Clock.order, ht.hour.compareBytes_eq hu.hour, ht.minute.compareBytes_eq hu.minute,
    ht.second.compareBytes_eq hu.second, ht.millisecond.compareBytes_eq hu.millisecond]

end

theorem compareTexts_datetime (t u : Timestamp) :
    compareTexts t.datetime u.datetime = (compareTexts t.date u.date).then (compareTexts t.time u.time) := by
  simp only [compareTexts, datetime, date, time, List.cons_append, List.nil_append,
    List.compareLex_cons_cons, List.compareLex_nil_nil, Ordering.then_eq, Ordering.then_assoc]

/-- **Keys of timestamps are in the order of time.** Let two values be timestamps whose instants lie in the
years 0 to 9999 in UTC, where a leap second counts as the last millisecond before it. Compared text by
text, each by its UTF-8 bytes, the components that `datetime` gives are in the order of the milliseconds
since 1970-01-01, and equal only at the same millisecond; those of `date` are in the order of the days, and
those of `time` in the order of the milliseconds within the day. -/
theorem compareTexts_keys {first second : Json} {i j : Instant} (hi : Time.instantOf? first = some i)
    (hj : Time.instantOf? second = some j) (hiyear : 0 ≤ i.date.year ∧ i.date.year ≤ 9999)
    (hjyear : 0 ≤ j.date.year ∧ j.date.year ≤ 9999) :
    ∃ t u, ofJson? first = some t ∧ ofJson? second = some u ∧
      compareTexts t.datetime u.datetime = compare i.millis j.millis ∧
      (t.datetime = u.datetime ↔ i.millis = j.millis) ∧
      compareTexts t.date u.date = compare (i.millis / 86400000) (j.millis / 86400000) ∧
      compareTexts t.time u.time = compare (i.millis % 86400000) (j.millis % 86400000) := by
  have ht : (ofInstant i).Shows i.date i.clock := shows_of_year (by omega) (by omega)
  have hu : (ofInstant j).Shows j.date j.clock := shows_of_year (by omega) (by omega)
  have hdate := compareTexts_date ht hu hiyear hjyear
  have htime := compareTexts_time ht hu
  have hdatetime : compareTexts (ofInstant i).datetime (ofInstant j).datetime =
      compare i.millis j.millis := by
    rw [compareTexts_datetime, hdate, htime, Instant.compare_millis]
  refine ⟨ofInstant i, ofInstant j, ?_, ?_, hdatetime, ?_, ?_, ?_⟩
  · rw [ofJson?, hi, Option.map_some]
  · rw [ofJson?, hj, Option.map_some]
  · constructor
    · intro heq
      rw [heq, Text.compareTexts_self] at hdatetime
      exact Int.compare_eq_eq.mp hdatetime.symm
    · intro heq
      rw [show i = j from congrArg Instant.mk heq]
  · rw [hdate]
    exact Date.order_ofDayNumber _ _
  · rw [htime]
    exact Instant.order_clock i j

/-- Half an hour before the new year and the new year itself, the first one written with the next year. -/
theorem compareTexts_keys_newYear :
    Time.instantOf? (.str "2000-01-01T00:30+01:00") = some ⟨946683000000⟩ ∧
      Time.instantOf? (.num (.int 946684800000)) = some ⟨946684800000⟩ ∧
      ∃ t u, ofJson? (.str "2000-01-01T00:30+01:00") = some t ∧
        ofJson? (.num (.int 946684800000)) = some u ∧ compareTexts t.datetime u.datetime = .lt ∧
        t.datetime ≠ u.datetime ∧ compareTexts t.date u.date = .lt ∧ compareTexts t.time u.time = .gt := by
  have hi : Time.instantOf? (.str "2000-01-01T00:30+01:00") = some ⟨946683000000⟩ := by decide +kernel
  have hj : Time.instantOf? (.num (.int 946684800000)) = some ⟨946684800000⟩ := by decide +kernel
  obtain ⟨t, u, ht, hu, hdatetime, hequal, hdate, htime⟩ :=
    compareTexts_keys hi hj (by decide) (by decide)
  refine ⟨hi, hj, t, u, ht, hu, hdatetime, ?_, hdate, htime⟩
  rw [ne_eq, hequal]
  decide

end Timestamp

end DocIndex
