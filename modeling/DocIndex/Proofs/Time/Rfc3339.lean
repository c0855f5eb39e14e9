import DocIndex.Proofs.Time.Form

/-!
# Reading date-times of RFC 3339

The strict reader takes the date, the time and the offset of a text one after another (`readRfc3339_eq`). On a
written timestamp it takes each of them for what is written, if all three are there in full, and it takes no
other form (`readRfc3339_text`).
-/

namespace DocIndex.Time

open Text (digit? takeDigits ofDigits padded)

/-! ### Numbers of a fixed width -/

theorem mapM_digit? {text : List Char} (h : ∀ c ∈ text, c.isDigit = true) :
    text.mapM digit? = some (text.map fun c => c.toNat - 48) := by
  induction text with
  | nil => rfl
  | cons c text ih =>
    rw [List.mapM_cons, Text.digit?_of_isDigit (h c List.mem_cons_self),
      ih fun d hd => h d (List.mem_cons_of_mem c hd)]
    rfl

section

variable {width n : Nat} (hwidth : 0 < width) (hn : n < 10 ^ width)

include hwidth hn

/-- A number of exactly the width is read whatever follows it. -/
theorem readFixed_padded (rest : List Char) : readFixed width (padded width n ++ rest) = some (n, rest) := by
  have hlength := Text.length_padded hwidth hn
  rw [readFixed, List.take_left' hlength, mapM_digit? fun _ => Text.isDigit_of_mem_padded]
  dsimp only
  rw [List.length_map, if_pos hlength, Text.ofDigits_padded, List.drop_left' hlength]

/-- A number of up to the width is read if no digit follows it. -/
theorem readUpTo_padded {rest : List Char} (hrest : ∀ c ∈ rest.head?, digit? c = none) :
    readUpTo width (padded width n ++ rest) = some (n, rest) := by
  have hlength := Text.length_padded hwidth hn
  have hdigits : ((padded width n).map fun c => c.toNat - 48).length = width := by
    rw [List.length_map, hlength]
  rw [readUpTo, Text.takeDigits_padded width n hrest, List.take_of_length_le hdigits.le]
  cases h : (padded width n).map fun c => c.toNat - 48 with
  | nil => exact absurd (List.map_eq_nil_iff.mp h) (Text.padded_ne_nil width n)
  | cons d digits =>
    dsimp only
    rw [← h, hdigits, Text.ofDigits_padded, List.drop_left' hlength]

end

/-- A year of four digits, with what follows it. -/
theorem readFixed_year (year : Fin 10000) (rest : List Char) :
    readFixed 4 (padded 4 year ++ rest) = some (year.val, rest) :=
  readFixed_padded (by decide) year.isLt rest

/-- A field of two digits, with what follows it. -/
theorem readFixed_field (field : Fin 100) (rest : List Char) :
    readFixed 2 (padded 2 field ++ rest) = some (field.val, rest) :=
  readFixed_padded (by decide) field.isLt rest

/-! ### RFC 3339 -/

/-- A date of three parts at the front of a text. -/
def readFullDate (text : List Char) : Option (Date × List Char) := do
  let (year, text) ← readFixed 4 text
  let text ← expect '-' text
  let (month, text) ← readFixed 2 text
  let text ← expect '-' text
  let (day, text) ← readFixed 2 text
  return (⟨year, month, day⟩, text)

/-- A time of three parts at the front of a text, which may not exist. -/
def readFullTime (text : List Char) : Option (Option Clock × List Char) := do
  let (hour, text) ← readFixed 2 text
  let text ← expect ':' text
  let (minute, text) ← readFixed 2 text
  let text ← expect ':' text
  let (second, text) ← readFixed 2 text
  let (millisecond, text) ← readFraction text
  return (clockWithLeap? hour minute second millisecond, text)

/-- A date-time is read in four parts. -/
theorem readRfc3339_eq (text : List Char) : readRfc3339 text = (do
    let (date, text) ← readFullDate text
    let text ← readSeparator text
    let (clock, text) ← readFullTime text
    let (offset, text) ← readOffset text
    let clock ← clock
    if text.isEmpty ∧ date.exists? then Instant.ofLocal? date clock offset else none) := by
  simp only [readRfc3339, readFullDate, readFullTime, bind_assoc, pure_bind]

theorem expect_cons (c : Char) (text : List Char) : expect c (c :: text) = some text := if_pos rfl

theorem expect_eq_none {c : Char} {text : List Char} (h : text.head? ≠ some c) : expect c text = none := by
  cases text with
  | nil => rfl
  | cons d text => exact if_neg fun heq => h (congrArg some heq)

theorem readFullDate_day (year : Fin 10000) (month day : Fin 100) (rest : List Char) :
    readFullDate ((DateForm.day year month day).text ++ rest) =
      some ((DateForm.day year month day).date, rest) := by
  simp [readFullDate, readFixed_year, readFixed_field, expect_cons, DateForm.text, DateForm.date]

theorem readFullDate_year (year : Fin 10000) {rest : List Char} (h : rest.head? ≠ some '-') :
    readFullDate ((DateForm.year year).text ++ rest) = none := by
  rw [readFullDate, DateForm.text, readFixed_year]
  simp [expect_eq_none h]

theorem readFullDate_month (year : Fin 10000) (month : Fin 100) {rest : List Char}
    (h : rest.head? ≠ some '-') : readFullDate ((DateForm.month year month).text ++ rest) = none := by
  rw [readFullDate, DateForm.text, List.append_assoc, readFixed_year]
  simp [readFixed_field, expect_cons, expect_eq_none h]

/-- An offset starts with a mark of its own, if it is written at all. -/
theorem ZoneForm.head?_text (zone : ZoneForm) {c : Char} (h : zone.text.head? = some c) :
    c = 'Z' ∨ c = '+' ∨ c = '-' := by
  cases zone with
  | none => cases h
  | utc => exact .inl (Option.some.inj h).symm
  | offset negative colon hour minute =>
    obtain rfl := Option.some.inj h
    cases negative
    · exact .inr (.inl rfl)
    · exact .inr (.inr rfl)

/-- The digits of a fraction are read as they are. -/
theorem takeDigits_digitText (digits : List (Fin 10)) {rest : List Char}
    (hrest : ∀ c ∈ rest.head?, digit? c = none) :
    takeDigits (digits.map SecondForm.digitText ++ rest) = (digits.map Fin.val, rest) := by
  have hdigit : ∀ d : Fin 10, (SecondForm.digitText d).isDigit = true ∧
      (SecondForm.digitText d).toNat - 48 = d.val := by decide
  rw [Text.takeDigits_append _ hrest, List.map_map]
  · exact congrArg (·, rest) (List.map_congr_left fun d _ => (hdigit d).2)
  · intro c hc
    obtain ⟨d, -, rfl⟩ := List.mem_map.mp hc
    exact (hdigit d).1

theorem millisOfFraction_digits (s : SecondForm) :
    millisOfFraction (s.fraction.map Fin.val) = s.millisecond := by
  obtain ⟨second, fraction⟩ := s
  rcases fraction with _ | ⟨a, _ | ⟨b, _ | ⟨c, digits⟩⟩⟩ <;>
    simp [millisOfFraction, SecondForm.millisecond, ofDigits] <;> omega

theorem readFraction_text (s : SecondForm) (zone : ZoneForm) :
    readFraction (SecondForm.fractionText s.fraction ++ zone.text) = some (s.millisecond, zone.text) := by
  have hmillis := millisOfFraction_digits s
  obtain ⟨second, fraction⟩ := s
  cases fraction with
  | nil =>
    have hpoint : zone.text.head? ≠ some '.' := fun h => by
      rcases zone.head?_text h with h | h | h <;> cases h
    show readFraction zone.text = some (0, zone.text)
    unfold readFraction
    split
    · rename_i text heq
      exact absurd (congrArg List.head? heq) hpoint
    · rfl
  | cons digit digits =>
    have hzone : ∀ c ∈ zone.text.head?, digit? c = none := fun c h => by
      rcases zone.head?_text h with rfl | rfl | rfl <;> rfl
    have hdigits := takeDigits_digitText (digit :: digits) hzone
    show readFraction ('.' :: ((digit :: digits).map SecondForm.digitText ++ zone.text)) = _
    rw [readFraction, hdigits]
    exact congrArg (fun millis => some (millis, zone.text)) hmillis

/-- A full time is read if the seconds are written. -/
theorem readFullTime_text (c : ClockForm) (zone : ZoneForm) :
    readFullTime (c.text ++ zone.text) = c.second.map fun s =>
      (clockWithLeap? c.hour c.minute s.second s.millisecond, zone.text) := by
  obtain ⟨hour, minute, _ | s⟩ := c
  · have hcolon : zone.text.head? ≠ some ':' := fun h => by
      rcases zone.head?_text h with h | h | h <;> cases h
    simp [readFullTime, ClockForm.text, readFixed_field, expect_cons, expect_eq_none hcolon]
  · simp [readFullTime, ClockForm.text, SecondForm.text, readFixed_field, expect_cons, readFraction_text]

/-- The offset that RFC 3339 reads in a written one. -/
def ZoneForm.strict? : ZoneForm → Option Int
  | none => .none
  | utc => some 0
  | offset negative colon hour minute =>
    if colon = true ∧ minute.val < 60 ∧ hour.val < 24 then
      some (ZoneForm.offset negative colon hour minute).seconds
    else .none

theorem readOffsetDigits_text (sign : Int) (colon : Bool) (hour minute : Fin 100) :
    readOffsetDigits sign (ZoneForm.unsignedText colon hour minute) =
      if colon = true ∧ minute.val < 60 ∧ hour.val < 24 then
        some (sign * (hour.val * 3600 + minute.val * 60 : Nat), [])
      else none := by
  have hminute : readFixed 2 (padded 2 minute) = some (minute.val, []) := by
    have h := readFixed_field minute []
    rwa [List.append_nil] at h
  cases colon with
  | true => simp [readOffsetDigits, ZoneForm.unsignedText, readFixed_field, expect_cons, hminute]
  | false =>
    have hcolon : (padded 2 minute.val).head? ≠ some ':' := fun h =>
      absurd (Text.isDigit_of_mem_padded (List.mem_of_mem_head? h)) (by decide)
    simp [readOffsetDigits, ZoneForm.unsignedText, readFixed_field, expect_eq_none hcolon]

theorem readOffset_text (zone : ZoneForm) :
    readOffset zone.text = zone.strict?.map fun seconds => (seconds, []) := by
  cases zone with
  | none => rfl
  | utc => rfl
  | offset negative colon hour minute =>
    by_cases h : colon = true ∧ minute.val < 60 ∧ hour.val < 24
    · have hdigits := fun sign => (readOffsetDigits_text sign colon hour minute).trans (if_pos h)
      rw [ZoneForm.strict?, if_pos h]
      cases negative with
      | true => exact (hdigits (-1)).trans (by rw [Int.neg_mul, Int.one_mul]; rfl)
      | false => exact (hdigits 1).trans (by rw [Int.one_mul]; rfl)
    · have hdigits := fun sign => (readOffsetDigits_text sign colon hour minute).trans (if_neg h)
      rw [ZoneForm.strict?, if_neg h]
      cases negative with
      | true => exact hdigits (-1)
      | false => exact hdigits 1

/-- RFC 3339 reads a full date with a full time and an offset, and no other form. -/
theorem readRfc3339_text (form : Form) : readRfc3339 form.text =
    match form.date, form.time with
    | .day year month day, some (⟨hour, minute, some s⟩, zone) => do
      let seconds ← zone.strict?
      let clock ← clockWithLeap? hour minute s.second s.millisecond
      let date := (DateForm.day year month day).date
      if date.exists? then Instant.ofLocal? date clock seconds else none
    | _, _ => none := by
  obtain ⟨date, time⟩ := form
  have hrest : (Form.timeText time).head? ≠ some '-' := by
    cases time with
    | none => simp [Form.timeText]
    | some time => simp [Form.timeText]
  show readRfc3339 (date.text ++ Form.timeText time) = _
  rw [readRfc3339_eq]
  cases date with
  | year year =>
    rw [readFullDate_year year hrest]
    rfl
  | month year month =>
    rw [readFullDate_month year month hrest]
    rfl
  | day year month day =>
    rw [readFullDate_day]
    rcases time with _ | ⟨⟨hour, minute, _ | s⟩, zone⟩
    · rfl
    · simp [Form.timeText, readSeparator, readFullTime_text]
    · cases hzone : zone.strict? <;>
        simp [Form.timeText, readSeparator, readFullTime_text, readOffset_text, hzone]

end DocIndex.Time
