import DocIndex.Proofs.Interpreted.Failure
import DocIndex.Proofs.Time.Lenient
import DocIndex.Proofs.Time.Timestamp

/-!
# Reading written timestamps

A timestamp that is written out in full stands for the point of time that it spells, with blanks around it
or without (`Timestamp.shown_of_text`): whichever of the two readers takes it, the instant is the same
(`Time.readRfc3339_text_cases`, `Time.readLenient_text`). What is out of range the first reader refuses,
part by part, and the second one too, except that it looks only at the whole offset
(`Time.ofText?_text_of_outOfRange`). So `+24:00` is refused, and `+00:75` means an hour and a quarter
(`Timestamp.refused_out_of_range`).
-/

namespace DocIndex

namespace Time

open Text (isBlank)

/-! ### In range -/

theorem ZoneForm.strict?_eq_some {zone : ZoneForm} {seconds : Int} (h : zone.strict? = some seconds) :
    zone.inRange = true ∧ zone.seconds = seconds := by
  cases zone with
  | none => cases h
  | utc => exact ⟨rfl, Option.some.inj h⟩
  | offset negative colon hour minute =>
    simp only [strict?] at h
    split at h
    · rename_i hlimits
      exact ⟨decide_eq_true ⟨hlimits.2.2, hlimits.2.1⟩, Option.some.inj h⟩
    · cases h

theorem clockWithLeap?_of_exists? {hour minute second millisecond : Nat}
    (h : (Clock.mk hour minute second millisecond).exists? = true) :
    clockWithLeap? hour minute second millisecond = some ⟨hour, minute, second, millisecond⟩ := by
  obtain ⟨-, -, hsecond, -⟩ : _ ∧ _ ∧ second < 60 ∧ _ := of_decide_eq_true h
  rw [clockWithLeap?, if_neg (Nat.ne_of_lt hsecond)]
  exact if_pos h

section

variable {form : Form} (hdate : form.date.date.exists? = true) (hclock : form.clock.exists? = true)
  (hoffset : form.offset.natAbs < 86400)

include hdate

theorem Form.local_eq_millis : form.date.date.dayNumber * Instant.millisPerDay + form.clock.toMillis -
    form.offset * 1000 = form.millis := by
  obtain ⟨-, -, hmonth, hmonth', -⟩ := of_decide_eq_true hdate
  rw [Date.dayNumber_eq_daysSince1970 hmonth hmonth', Form.millis, Instant.millisPerDay]
  omega

include hclock hoffset

/-- The years of four digits lie inside the calendar, with any offset. -/
theorem Form.millis_mem : Instant.first ≤ form.millis ∧ form.millis ≤ Instant.last := by
  have hyear : form.date.date.year.natAbs < 100000 := by
    cases form.date <;> simp only [DateForm.date] <;> omega
  rw [← Form.local_eq_millis hdate]
  exact Instant.local_mem hdate hyear hclock hoffset

theorem Form.ofLocal?_eq :
    Instant.ofLocal? form.date.date form.clock form.offset = some ⟨form.millis⟩ := by
  rw [Instant.ofLocal?, Form.local_eq_millis hdate]
  exact if_pos (Form.millis_mem hdate hclock hoffset)

/-- RFC 3339 takes a timestamp that is in range for the same instant, if it takes it at all. -/
theorem readRfc3339_text_cases :
    readRfc3339 form.text = none ∨ readRfc3339 form.text = some ⟨form.millis⟩ := by
  have hlocal := form.ofLocal?_eq hdate hclock hoffset
  rw [readRfc3339_text]
  obtain ⟨_ | _ | ⟨year, month, day⟩, _ | ⟨⟨hour, minute, _ | s⟩, zone⟩⟩ := form
  case day.some.some =>
    dsimp only
    cases hzone : zone.strict? with
    | none => exact .inl rfl
    | some seconds =>
      obtain ⟨-, rfl⟩ := ZoneForm.strict?_eq_some hzone
      rw [clockWithLeap?_of_exists? hclock]
      exact .inr ((if_pos hdate).trans hlocal)
  all_goals exact .inl rfl

/-- A timestamp that is in range stands for the point of time that it spells. -/
theorem ofText?_text {before after : List Char} (hbefore : ∀ c ∈ before, isBlank c = true)
    (hafter : ∀ c ∈ after, isBlank c = true) :
    ofText? (before ++ form.text ++ after) = some ⟨form.millis⟩ := by
  rw [ofText?, Text.trim_append hbefore (fun _ => Form.not_isBlank) hafter]
  rcases readRfc3339_text_cases hdate hclock hoffset with h | h
  · rw [h]
    exact ((readLenient_text form).trans (if_pos ⟨hdate, hclock, hoffset⟩)).trans
      (form.ofLocal?_eq hdate hclock hoffset)
  · rw [h]

end

/-! ### Out of range -/

theorem clockWithLeap?_eq_none {hour minute second : Nat} (h : 24 ≤ hour ∨ 60 ≤ minute ∨ 60 < second)
    (millisecond : Nat) : clockWithLeap? hour minute second millisecond = none := by
  refine if_neg fun hclock => ?_
  split at hclock
  · obtain ⟨hhour, hminute, -⟩ : hour < 24 ∧ minute < 60 ∧ _ := of_decide_eq_true hclock
    omega
  · obtain ⟨hhour, hminute, hsecond, -⟩ : hour < 24 ∧ minute < 60 ∧ second < 60 ∧ _ :=
      of_decide_eq_true hclock
    omega

/-- RFC 3339 has a limit for every part; second 60 is a leap second. -/
theorem readRfc3339_text_eq_none {date : DateForm} {clock : ClockForm} {zone : ZoneForm}
    (h : date.date.exists? = false ∨ clock.OutOfRange ∨ zone.inRange = false) :
    readRfc3339 (Form.text ⟨date, some (clock, zone)⟩) = none := by
  rw [readRfc3339_text]
  obtain ⟨hour, minute, _ | s⟩ := clock <;> cases date <;> try rfl
  dsimp only
  cases hzone : zone.strict? with
  | none => rfl
  | some seconds =>
    cases hclock : clockWithLeap? hour minute s.second s.millisecond with
    | none => rfl
    | some clock =>
      rcases h with hdate | hclock' | hrange
      · exact if_neg (Bool.eq_false_iff.mp hdate)
      · have hlimits : 24 ≤ hour.val ∨ 60 ≤ minute.val ∨ 60 < s.second.val := by
          simpa [ClockForm.OutOfRange] using hclock'
        rw [clockWithLeap?_eq_none hlimits] at hclock
        cases hclock
      · rw [(ZoneForm.strict?_eq_some hzone).1] at hrange
        cases hrange

/-- A timestamp with a part out of range is left to the lenient reader, which looks only at the whole
offset. -/
theorem ofText?_text_of_outOfRange {date : DateForm} {clock : ClockForm} {zone : ZoneForm}
    (h : date.date.exists? = false ∨ clock.OutOfRange ∨ zone.inRange = false) :
    ofText? (Form.text ⟨date, some (clock, zone)⟩) =
      if Form.overflows ⟨date, some (clock, zone)⟩ then some ⟨Form.millis ⟨date, some (clock, zone)⟩⟩
      else none := by
  rw [ofText?, Text.trim_of_forall fun _ => Form.not_isBlank, readRfc3339_text_eq_none h]
  refine (readLenient_text _).trans ?_
  by_cases hrange : date.date.exists? = true ∧ clock.clock.exists? = true ∧ zone.seconds.natAbs < 86400
  · rw [if_pos ((Form.overflows_iff h).mpr hrange)]
    obtain ⟨hdate, hclock, hoffset⟩ := hrange
    exact (if_pos ⟨hdate, hclock, hoffset⟩).trans
      (@Form.ofLocal?_eq ⟨date, some (clock, zone)⟩ hdate hclock hoffset)
  · rw [if_neg fun hoverflows => hrange ((Form.overflows_iff h).mp hoverflows)]
    exact if_neg hrange

end Time

namespace Timestamp

open Time
open Text (isBlank)

/-- **A written timestamp shows the point of time that it spells.** Let the date exist, the parts of the
time and of the offset be below their limits, and blanks stand around the text. Then the texts of the
timestamp are those of a date and a clock that exist, and in milliseconds they are the written date and time
less the written offset, whatever day, month or year that leads to. -/
theorem shown_of_text {form : Form} (h : form.inRange = true) {before after : List Char}
    (hbefore : ∀ c ∈ before, isBlank c = true) (hafter : ∀ c ∈ after, isBlank c = true) :
    ∃ t date clock, ofJson? (.str (String.ofList (before ++ form.text ++ after))) = some t ∧
      t.Shows date clock ∧ date.exists? = true ∧ clock.exists? = true ∧
      86400000 * date.daysSince1970 + clock.toMillis =
        86400000 * form.date.date.daysSince1970 + form.clock.toMillis - 1000 * form.offset := by
  obtain ⟨hdate, hclock, hoffset⟩ := form.limits_of_inRange h
  obtain ⟨hfirst, hlast⟩ := form.millis_mem hdate hclock hoffset
  have hread : ofJson? (.str (String.ofList (before ++ form.text ++ after))) =
      some (ofInstant ⟨form.millis⟩) := by
    rw [ofJson?, instantOf?, String.toList_ofList, ofText?_text hdate hclock hoffset hbefore hafter]
    rfl
  obtain ⟨date, clock, hshown⟩ := @exists_shown_ofInstant ⟨form.millis⟩ hfirst hlast
  exact ⟨_, date, clock, hread, hshown⟩

/-- Half past eleven on New Year's Eve, where clocks are behind UTC. -/
def newYearsEve (fraction : List (Fin 10)) : Form :=
  ⟨.day 2023 12 31, some (⟨23, 30, some ⟨0, fraction⟩⟩, .offset true false 1 45)⟩

/-- In UTC the new year has begun. -/
theorem shown_newYearsEve :
    ofJson? (.str "\u30002023-12-31T23:30:00.5-0145\n") =
        some ⟨"2024", "01", "01", "01", "15", "00", "500"⟩ ∧
      86400000 * Date.daysSince1970 ⟨2024, 1, 1⟩ + Clock.toMillis ⟨1, 15, 0, 500⟩ =
        86400000 * Date.daysSince1970 ⟨2023, 12, 31⟩ + Clock.toMillis ⟨23, 30, 0, 500⟩ + 1000 * 6300 := by
  have htext : String.ofList (['\u3000'] ++ (newYearsEve [5]).text ++ ['\n']) =
      "\u30002023-12-31T23:30:00.5-0145\n" := by decide +kernel
  have hread : ofJson? (.str "\u30002023-12-31T23:30:00.5-0145\n") =
      some ⟨"2024", "01", "01", "01", "15", "00", "500"⟩ := by decide +kernel
  obtain ⟨t, date, clock, hshown, hshows, -, -, hsum⟩ :=
    @shown_of_text (newYearsEve [5]) (by decide) ['\u3000'] ['\n'] (List.forall_mem_singleton.mpr rfl)
      (List.forall_mem_singleton.mpr rfl)
  rw [htext, hread] at hshown
  obtain rfl := Option.some.inj hshown
  have hyear : Text.Spells 4 2024 ['2', '0', '2', '4'] := by decide
  have hexact : Shows ⟨"2024", "01", "01", "01", "15", "00", "500"⟩ ⟨2024, 1, 1⟩ ⟨1, 15, 0, 500⟩ :=
    ⟨hyear, by decide, by decide, by decide, by decide, by decide, by decide⟩
  obtain ⟨rfl, rfl⟩ := hshows.unique hexact
  exact ⟨hread, hsum⟩

/-- **What is out of range is refused, but for the minutes of an offset below a day.** Let a date and a time
be written in full, with a month or a day that does not exist, or with a part of the time or of the offset at
its limit or beyond (second 60 is a leap second). Then the text is no timestamp, a transform of it fails, and
a key made of that is `null`. Only where nothing but the minutes of the offset is out of range, and the whole
offset stays below a day, is the offset taken as it is written. -/
theorem refused_out_of_range {year : Fin 10000} {month day : Fin 100} {clock : ClockForm} {zone : ZoneForm}
    (h : (month.val < 1 ∨ 12 < month.val) ∨
      (day.val < 1 ∨ Date.daysInMonth year.val month.val < day.val) ∨
      (24 ≤ clock.hour.val ∨ 60 ≤ clock.minute.val ∨ ∃ s ∈ clock.second, 60 < s.second.val) ∨
      ∃ negative colon hour minute, zone = .offset negative colon hour minute ∧
        (24 ≤ hour.val ∨ 60 ≤ minute.val)) :
    let form : Form := ⟨.day year month day, some (clock, zone)⟩
    let value : Json := .str (String.ofList form.text)
    (form.overflows = false → ofJson? value = none ∧
      ∀ (options : Options) (transform : Transform), transform.isTemporal = true →
        transform.apply options (.plain value) = .failed ∧
        ∀ (view : View) (inner : Pattern) (d : Descriptor) (document : Json),
          view.key = .single (.access inner d) → d.transform = some transform → d.emit = false →
          d.splay = false → inner.interpret options document = .plain value →
          view.rows options document =
            (rowValues (view.value.map (Pattern.interpret options document))).map (Row.mk .null)) ∧
    (form.overflows = true → ofJson? value = some (ofInstant ⟨form.millis⟩)) := by
  intro form value
  have hrange : form.date.date.exists? = false ∨ clock.OutOfRange ∨ zone.inRange = false := by
    rcases h with hmonth | hday | hclock | ⟨negative, colon, hour, minute, rfl, hlimits⟩
    · exact .inl (DateForm.exists?_day_eq_false (.inl hmonth))
    · exact .inl (DateForm.exists?_day_eq_false (.inr hday))
    · exact .inr (.inl hclock)
    · exact .inr (.inr (decide_eq_false (by omega)))
  have hread : ofJson? value = if form.overflows then some (ofInstant ⟨form.millis⟩) else none := by
    rw [ofJson?, instantOf?, String.toList_ofList, ofText?_text_of_outOfRange hrange]
    cases Form.overflows ⟨.day year month day, some (clock, zone)⟩ <;> rfl
  refine ⟨fun hnot => ?_, fun hoverflows => hread.trans (if_pos hoverflows)⟩
  have hnone : ofJson? value = none := hread.trans (if_neg (Bool.eq_false_iff.mp hnot))
  refine ⟨hnone, fun options transform htemporal => ?_⟩
  have hfailed : transform.apply options (.plain value) = .failed := by
    rw [Transform.apply_temporal htemporal, hnone]
    rfl
  refine ⟨hfailed, fun view inner d document hkey htransform hemit hsplay hvalue => ?_⟩
  exact View.rows_of_failed hkey htransform hemit hsplay (hvalue ▸ hfailed)

/-- Ten o'clock, where clocks are behind UTC. -/
def behind (hour minute : Fin 100) : Form :=
  ⟨.day 2024 1 5, some (⟨10, 0, none⟩, .offset true false hour minute)⟩

/-- The hour at which something happened. -/
def hourView : View :=
  ⟨.single (.access (.path ⟨"at"⟩) { Descriptor.none with transform := some .hour }), none, none⟩

/-- With 23 hours an offset of sixty minutes is a day, with 22 hours it is below. -/
theorem refused_wholeDay :
    ofJson? (.str "2024-01-05T10:00-2360") = none ∧
      hourView.rows .default (.obj [("at", .str "2024-01-05T10:00-2360")]) = [⟨.null, .null⟩] ∧
      ofJson? (.str "2024-01-05T10:00-2260") = some ⟨"2024", "01", "06", "09", "00", "00", "000"⟩ := by
  have hday : String.ofList (behind 23 60).text = "2024-01-05T10:00-2360" := by decide +kernel
  have hless : String.ofList (behind 22 60).text = "2024-01-05T10:00-2260" := by decide +kernel
  have hmillis : (behind 22 60).millis = 1704531600000 := by decide +kernel
  have hlimits : ∀ hour : Fin 100, ∃ negative colon hour' minute,
      ZoneForm.offset true false hour 60 = .offset negative colon hour' minute ∧
        (24 ≤ hour'.val ∨ 60 ≤ minute.val) :=
    fun hour => ⟨true, false, hour, 60, rfl, .inr (by decide)⟩
  obtain ⟨hrefused, -⟩ := @refused_out_of_range 2024 1 5 ⟨10, 0, none⟩ (.offset true false 23 60)
    (.inr (.inr (.inr (hlimits 23))))
  obtain ⟨-, htaken⟩ := @refused_out_of_range 2024 1 5 ⟨10, 0, none⟩ (.offset true false 22 60)
    (.inr (.inr (.inr (hlimits 22))))
  obtain ⟨hnone, hfailed⟩ := hrefused (by decide)
  have hread := htaken (by decide)
  have hrows := (hfailed .default .hour rfl).2 hourView (.path ⟨"at"⟩)
    { Descriptor.none with transform := some .hour }
    (.obj [("at", .str (String.ofList (behind 23 60).text))]) rfl rfl rfl rfl rfl
  change ofJson? (.str (String.ofList (behind 23 60).text)) = none at hnone
  change ofJson? (.str (String.ofList (behind 22 60).text)) =
    some (ofInstant ⟨(behind 22 60).millis⟩) at hread
  rw [hday] at hnone hrows
  rw [hless, hmillis] at hread
  exact ⟨hnone, hrows, hread.trans (by decide +kernel)⟩

/-- An hour and a quarter ahead of UTC, written as 75 minutes. -/
theorem taken_overflowingOffset :
    Form.text ⟨.day 2024 1 5, some (⟨10, 0, some ⟨0, []⟩⟩, .offset false true 0 75)⟩ =
        "2024-01-05T10:00:00+00:75".toList ∧
      ofJson? (.str "2024-01-05T10:00:00+00:75") = some ⟨"2024", "01", "05", "08", "45", "00", "000"⟩ := by
  decide +kernel

end Timestamp

end DocIndex
