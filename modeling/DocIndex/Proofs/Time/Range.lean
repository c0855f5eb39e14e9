import DocIndex.Proofs.Time.Chronology

/-!
# The range of timestamps

The integers that are timestamps are the milliseconds of the calendar's years
(`Timestamp.isSome_ofJson?_int_iff`). The limit on the magnitude of a number lies beyond both ends of the
calendar, so a number within the limit may still be refused (`Timestamp.ofJson?_at_numberLimit`).
-/

namespace DocIndex

/-- The date of a number lies in the calendar's years exactly from their first day to their last one. -/
theorem Date.year_ofDayNumber_mem_iff (number : Int) :
    (firstYear ≤ (ofDayNumber number).year ∧ (ofDayNumber number).year ≤ lastYear) ↔
      (Date.mk firstYear 1 1).dayNumber ≤ number ∧ number ≤ (Date.mk lastYear 12 31).dayNumber := by
  have hstart : ofDayNumber (Date.mk firstYear 1 1).dayNumber = ⟨firstYear, 1, 1⟩ := by decide
  have hfinish : ofDayNumber (Date.mk lastYear 12 31).dayNumber = ⟨lastYear, 12, 31⟩ := by decide
  obtain ⟨⟨hmonth, hmonth'⟩, hday, hday'⟩ := ofDayNumber_mem number
  have hlength := daysInMonth_le (ofDayNumber number).year (ofDayNumber number).month
  constructor
  · rintro ⟨hfirst, hlast⟩
    constructor
    · -- a day before the first one would be in an earlier year, month or day of the month
      refine Int.not_lt.mp fun hbefore => ?_
      have horder := order_eq_lt_of_lt hbefore
      rw [hstart, order_eq_lt_iff] at horder
      dsimp only at horder
      omega
    · refine Int.not_lt.mp fun hafter => ?_
      have horder := order_eq_lt_of_lt hafter
      rw [hfinish, order_eq_lt_iff] at horder
      dsimp only at horder
      omega
  · rintro ⟨hfirst, hlast⟩
    exact year_ofDayNumber hfirst hlast

/-- An instant lies in the calendar's years exactly from their first millisecond to their last one. -/
theorem Instant.year_mem_iff (instant : Instant) :
    (Date.firstYear ≤ instant.date.year ∧ instant.date.year ≤ Date.lastYear) ↔
      first ≤ instant.millis ∧ instant.millis ≤ last := by
  rw [date, Date.year_ofDayNumber_mem_iff]
  unfold first last millisPerDay
  omega

namespace Timestamp

/-- **The integers that are timestamps.** An integer is a timestamp exactly if its magnitude is at most
`8640000000000000` and the calendar has the year, in UTC, that it lies in as a number of milliseconds. These
are the integers from `-8334601228800000` to `8210266876799999`, so the limit alone never refuses one. -/
theorem isSome_ofJson?_int_iff (n : Int) :
    ((ofJson? (.num (.int n))).isSome = true ↔ n.natAbs ≤ 8640000000000000 ∧
      -262143 ≤ (Instant.mk n).date.year ∧ (Instant.mk n).date.year ≤ 262142) ∧
    ((ofJson? (.num (.int n))).isSome = true ↔ -8334601228800000 ≤ n ∧ n ≤ 8210266876799999) := by
  have hfirst : Instant.first = -8334601228800000 := by decide
  have hlast : Instant.last = 8210266876799999 := by decide
  have hyear := Instant.year_mem_iff ⟨n⟩
  rw [hfirst, hlast] at hyear
  have hrange : (ofJson? (.num (.int n))).isSome = true ↔
      n.natAbs ≤ 8640000000000000 ∧ -8334601228800000 ≤ n ∧ n ≤ 8210266876799999 := by
    rw [ofJson?, Option.isSome_map, Time.instantOf?, Instant.ofNumber?_int, ← hfirst, ← hlast]
    unfold Instant.numberLimit Instant.ofMillis?
    split_ifs with hlimit hcalendar
    · exact iff_of_true rfl ⟨hlimit, hcalendar⟩
    · exact iff_of_false Bool.false_ne_true fun h => hcalendar h.2
    · exact iff_of_false Bool.false_ne_true fun h => hlimit h.1
  constructor
  · rw [hrange]
    exact and_congr_right fun _ => hyear.symm
  · rw [hrange]
    omega

/-- Neither end of the limit is a timestamp: the calendar has no year 275760 and no year -271821. -/
theorem ofJson?_at_numberLimit :
    (8640000000000000 : Int).natAbs ≤ Instant.numberLimit ∧
      ofJson? (.num (.int 8640000000000000)) = none ∧
      (Instant.mk 8640000000000000).date.year = 275760 ∧
      (-8640000000000000 : Int).natAbs ≤ Instant.numberLimit ∧
      ofJson? (.num (.int (-8640000000000000))) = none ∧
      (Instant.mk (-8640000000000000)).date.year = -271821 := by
  decide +kernel

end Timestamp

end DocIndex
