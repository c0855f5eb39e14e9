import DocIndex.Proofs.Text.Blank
import DocIndex.Proofs.Text.Slice
import DocIndex.Proofs.Time.Rfc3339
import Mathlib.Data.List.Basic

/-!
# Reading timestamps leniently

The lenient reader splits a text before it reads any number: at the `T`, at the last sign, at the point and at
the colons. In a written timestamp each of these characters has one place, since numbers have none of them, so
the parts are those that were written, and the reader takes every form of a date, of a time and of an offset
(`readLenient_text`).
-/

namespace DocIndex.Time

open Text (digit? natural? unsigned? padded trim trimStart isBlank)

/-! ### Characters of a written timestamp -/

theorem DateForm.mem_text {date : DateForm} {c : Char} (h : c ∈ date.text) : c.isDigit = true ∨ c = '-' := by
  have hdigit : ∀ width n, c ∈ padded width n → c.isDigit = true := fun _ _ => Text.isDigit_of_mem_padded
  cases date with
  | year y => exact .inl (hdigit _ _ h)
  | month y m =>
    simp only [text, List.mem_append, List.mem_cons] at h
    grind
  | day y m d =>
    simp only [text, List.mem_append, List.mem_cons] at h
    grind

theorem SecondForm.mem_text {s : SecondForm} {c : Char} (h : c ∈ s.text) : c.isDigit = true ∨ c = '.' := by
  have hdigit : ∀ d, (digitText d).isDigit = true := by decide
  obtain ⟨second, fraction⟩ := s
  rcases List.mem_append.mp h with hsecond | hfraction
  · exact .inl (Text.isDigit_of_mem_padded hsecond)
  · cases fraction with
    | nil => cases hfraction
    | cons digit digits =>
      have hmem : c ∈ '.' :: (digit :: digits).map digitText := hfraction
      rcases List.mem_cons.mp hmem with rfl | hmem
      · exact .inr rfl
      · obtain ⟨d, -, rfl⟩ := List.mem_map.mp hmem
        exact .inl (hdigit d)

theorem ClockForm.mem_text {clock : ClockForm} {c : Char} (h : c ∈ clock.text) :
    c.isDigit = true ∨ c = ':' ∨ c = '.' := by
  have hdigit : ∀ width n, c ∈ padded width n → c.isDigit = true := fun _ _ => Text.isDigit_of_mem_padded
  obtain ⟨hour, minute, _ | s⟩ := clock
  · simp only [text, List.mem_append, List.mem_cons, List.not_mem_nil] at h
    grind
  · have hsecond : c ∈ s.text → _ := SecondForm.mem_text
    simp only [text, List.mem_append, List.mem_cons] at h
    grind

theorem ZoneForm.mem_unsignedText {colon : Bool} {hour minute : Fin 100} {c : Char}
    (h : c ∈ unsignedText colon hour minute) : c.isDigit = true ∨ c = ':' := by
  have hdigit : ∀ width n, c ∈ padded width n → c.isDigit = true := fun _ _ => Text.isDigit_of_mem_padded
  unfold unsignedText at h
  cases colon <;> grind

theorem ZoneForm.mem_text {zone : ZoneForm} {c : Char} (h : c ∈ zone.text) :
    c.isDigit = true ∨ c = ':' ∨ c = 'Z' ∨ c = '+' ∨ c = '-' := by
  cases zone with
  | none => cases h
  | utc => exact .inr (.inr (.inl (List.mem_singleton.mp h)))
  | offset negative colon hour minute =>
    rcases List.mem_cons.mp h with hsign | hrest
    · cases negative
      · exact .inr (.inr (.inr (.inl hsign)))
      · exact .inr (.inr (.inr (.inr hsign)))
    · exact (mem_unsignedText hrest).imp_right .inl

theorem DateForm.not_isBlank {date : DateForm} {c : Char} (h : c ∈ date.text) : isBlank c = false := by
  rcases mem_text h with hdigit | rfl
  · exact Text.isBlank_of_isDigit hdigit
  · rfl

theorem ClockForm.not_isBlank {clock : ClockForm} {c : Char} (h : c ∈ clock.text) : isBlank c = false := by
  rcases mem_text h with hdigit | rfl | rfl
  · exact Text.isBlank_of_isDigit hdigit
  all_goals rfl

theorem ZoneForm.not_isBlank {zone : ZoneForm} {c : Char} (h : c ∈ zone.text) : isBlank c = false := by
  rcases mem_text h with hdigit | rfl | rfl | rfl | rfl
  · exact Text.isBlank_of_isDigit hdigit
  all_goals rfl

/-- No character of a written timestamp is blank. -/
theorem Form.not_isBlank {form : Form} {c : Char} (h : c ∈ form.text) : isBlank c = false := by
  rcases List.mem_append.mp h with hdate | htime
  · exact DateForm.not_isBlank hdate
  · cases hform : form.time with
    | none =>
      rw [hform] at htime
      cases htime
    | some time =>
      rw [hform] at htime
      rcases List.mem_cons.mp htime with rfl | hparts
      · rfl
      · exact (List.mem_append.mp hparts).elim ClockForm.not_isBlank ZoneForm.not_isBlank

/-! ### Splitting -/

theorem splitFirst?_append {mark : Char} {front : List Char} (h : mark ∉ front) (rest : List Char) :
    splitFirst? mark (front ++ mark :: rest) = some (front, rest) := by
  induction front with
  | nil => exact if_pos rfl
  | cons c front ih =>
    rw [List.mem_cons, not_or] at h
    rw [List.cons_append, splitFirst?, if_neg (Ne.symm h.1), ih h.2]
    rfl

theorem splitFirst?_eq_none {mark : Char} {text : List Char} (h : mark ∉ text) :
    splitFirst? mark text = none := by
  induction text with
  | nil => rfl
  | cons c text ih =>
    rw [List.mem_cons, not_or] at h
    rw [splitFirst?, if_neg (Ne.symm h.1), ih h.2]
    rfl

theorem splitAll_of_notMem {mark : Char} {text : List Char} (h : mark ∉ text) :
    splitAll mark text = [text] := by
  induction text with
  | nil => rfl
  | cons c text ih =>
    rw [List.mem_cons, not_or] at h
    rw [splitAll, if_neg (Ne.symm h.1), ih h.2]

theorem splitAll_append {mark : Char} {front : List Char} (h : mark ∉ front) (rest : List Char) :
    splitAll mark (front ++ mark :: rest) = front :: splitAll mark rest := by
  induction front with
  | nil => exact if_pos rfl
  | cons c front ih =>
    rw [List.mem_cons, not_or] at h
    rw [List.cons_append, splitAll, if_neg (Ne.symm h.1), ih h.2]

theorem splitLastSign?_eq_none {text : List Char} (h : ∀ c ∈ text, ¬(c = '+' ∨ c = '-')) :
    splitLastSign? text = none := by
  induction text with
  | nil => rfl
  | cons c text ih =>
    rw [splitLastSign?, ih fun d hd => h d (List.mem_cons_of_mem c hd)]
    exact if_neg (h c List.mem_cons_self)

/-- A sign splits a text where no sign follows it. -/
theorem splitLastSign?_append {sign : Char} (hsign : sign = '+' ∨ sign = '-') {rest : List Char}
    (h : ∀ c ∈ rest, ¬(c = '+' ∨ c = '-')) (front : List Char) :
    splitLastSign? (front ++ sign :: rest) = some (front, sign :: rest) := by
  induction front with
  | nil =>
    rw [List.nil_append, splitLastSign?, splitLastSign?_eq_none h]
    exact if_pos hsign
  | cons c front ih => rw [List.cons_append, splitLastSign?, ih]

/-! ### Dates -/

theorem byteLength_eq (text : List Char) : byteLength text = (utf8Bytes text).length := by
  have hfold : ∀ start, text.foldl (fun length c => length + c.utf8Size) start =
      start + (utf8Bytes text).length := by
    induction text with
    | nil => exact fun start => rfl
    | cons c text ih =>
      intro start
      rw [List.foldl_cons, ih, length_utf8Bytes_cons, Nat.add_assoc]
  exact (hfold 0).trans (Nat.zero_add _)

theorem byteLength_of_isAscii {text : List Char} (h : Text.isAscii text = true) :
    byteLength text = text.length := by
  rw [byteLength_eq, Text.length_utf8Bytes_of_isAscii h]

/-- A text that starts with a number has no blanks in front. -/
theorem trimStart_padded (width n : Nat) (rest : List Char) :
    trimStart (padded width n ++ rest) = padded width n ++ rest := by
  refine Text.trimStart_of_head fun c h => ?_
  rw [List.head?_append_of_ne_nil _ (Text.padded_ne_nil width n)] at h
  exact Text.isBlank_of_isDigit (Text.isDigit_of_mem_padded (List.mem_of_mem_head? h))

theorem digit?_eq_none_of_hyphen (rest : List Char) : ∀ c ∈ ('-' :: rest).head?, digit? c = none := by
  intro c h
  obtain rfl := Option.some.inj h
  rfl

/-- A year without a sign is read as up to four digits. -/
theorem readYear_padded (year : Fin 10000) (rest : List Char) :
    readYear (padded 4 year ++ '-' :: rest) = some ((year.val : Int), '-' :: rest) := by
  have hread : readUpTo 4 (padded 4 year ++ '-' :: rest) = some (year.val, '-' :: rest) :=
    readUpTo_padded (by decide) year.isLt (digit?_eq_none_of_hyphen rest)
  obtain ⟨c, digits, hcons⟩ := List.exists_cons_of_ne_nil (Text.padded_ne_nil 4 year.val)
  have hdigit : c.isDigit = true := Text.isDigit_of_mem_padded (hcons ▸ List.mem_cons_self)
  rw [hcons] at hread ⊢
  unfold readYear
  split
  · rename_i heq
    obtain ⟨rfl, -⟩ := List.cons.inj heq
    cases hdigit
  · rename_i heq
    obtain ⟨rfl, -⟩ := List.cons.inj heq
    cases hdigit
  · rw [hread]
    rfl

/-- A date of three parts is read if it exists. -/
theorem readDate_text (year : Fin 10000) (month day : Fin 100) :
    readDate (padded 4 year ++ '-' :: (padded 2 month ++ '-' :: padded 2 day)) =
      if (Date.mk year.val month day).exists? then some ⟨year.val, month, day⟩ else none := by
  have hmonth : readUpTo 2 (padded 2 month ++ '-' :: padded 2 day) = some (month.val, '-' :: padded 2 day) :=
    readUpTo_padded (by decide) month.isLt (digit?_eq_none_of_hyphen _)
  have hday : readUpTo 2 (padded 2 day) = some (day.val, []) := by
    have h := @readUpTo_padded 2 day.val (by decide) day.isLt [] (by simp)
    rwa [List.append_nil] at h
  have htrim : trimStart (padded 2 day.val) = padded 2 day := by
    have h := trimStart_padded 2 day.val []
    rwa [List.append_nil] at h
  simp [readDate, trimStart_padded, htrim, readYear_padded, expect_cons, hmonth, hday]

theorem dateOf?_text (date : DateForm) :
    dateOf? date.text = if date.date.exists? then some date.date else none := by
  have htrim : trim date.text = date.text := Text.trim_of_forall fun _ => DateForm.not_isBlank
  have hascii : Text.isAscii date.text = true := Text.isAscii_iff.mpr fun c h => by
    rcases DateForm.mem_text h with hdigit | rfl
    · exact Text.toNat_lt_of_isDigit hdigit
    · decide
  have hyear : ∀ y : Fin 10000, (padded 4 y.val).length = 4 := fun y => Text.length_padded (by decide) y.isLt
  have hfield : ∀ f : Fin 100, (padded 2 f.val).length = 2 := fun f => Text.length_padded (by decide) f.isLt
  unfold dateOf?
  dsimp only
  rw [htrim, byteLength_of_isAscii hascii]
  cases date with
  | year y =>
    have hlength : (DateForm.year y).text.length = 4 := hyear y
    rw [hlength]
    exact readDate_text y 1 1
  | month y m =>
    have hlength : (DateForm.month y m).text.length = 7 := by
      simp [DateForm.text, hyear, hfield]
    rw [hlength]
    show readDate ((padded 4 y ++ '-' :: padded 2 m) ++ ['-', '0', '1']) = _
    rw [List.append_assoc]
    exact readDate_text y m 1
  | day y m d =>
    have hlength : (DateForm.day y m d).text.length = 10 := by
      simp [DateForm.text, hyear, hfield]
    rw [hlength]
    exact readDate_text y m d

/-! ### Offsets -/

theorem exists_padded_field (field : Fin 100) : ∃ c d, padded 2 field.val = [c, d] :=
  List.length_eq_two.mp (Text.length_padded (by decide) field.isLt)

/-- An offset of two fields is read, whatever they are. -/
theorem readLenientOffset_text (negative colon : Bool) (hour minute : Fin 100) :
    readLenientOffset (ZoneForm.offset negative colon hour minute).text =
      some (ZoneForm.offset negative colon hour minute).seconds := by
  have hnumber : ∀ field : Fin 100, natural? (padded 2 field) = some field.val := fun field =>
    Text.natural?_padded 2 field
  obtain ⟨h₁, h₂, hhour⟩ := exists_padded_field hour
  obtain ⟨m₁, m₂, hminute⟩ := exists_padded_field minute
  have hread : readLenientOffset (ZoneForm.offset negative colon hour minute).text =
      offsetOf? (if negative then '-' else '+') h₁ h₂ m₁ m₂ := by
    rw [ZoneForm.text, ZoneForm.unsignedText, hhour, hminute]
    cases colon with
    | true => rfl
    | false =>
      show readLenientOffset [if negative then '-' else '+', h₁, h₂, m₁, m₂] = _
      by_cases hcolon : m₁ = ':'
      · subst hcolon
        rfl
      · unfold readLenientOffset
        split
        · simp_all
        · simp_all
        · rename_i hother
          exact absurd rfl (hother _ _ _ _ _)
  rw [hread, offsetOf?, ← hhour, ← hminute, hnumber, hnumber]
  cases negative <;> rfl

theorem splitOffset_text (clock : ClockForm) (zone : ZoneForm) :
    splitOffset (clock.text ++ zone.text) = some (clock.text, zone.seconds) := by
  have hmark : ∀ c, c = 'Z' ∨ c = '+' ∨ c = '-' → c ∉ clock.text := by
    intro c hc hmem
    rcases ClockForm.mem_text hmem with hdigit | rfl | rfl
    · rcases hc with rfl | rfl | rfl <;> cases hdigit
    · simp at hc
    · simp at hc
  have hlast : ∀ text : List Char, 'Z' ∉ text → text.getLast? ≠ some 'Z' := fun text h heq =>
    h (List.mem_of_getLast? heq)
  cases zone with
  | none =>
    have hsign : ∀ c ∈ clock.text, ¬(c = '+' ∨ c = '-') := fun c hmem hc => hmark c (.inr hc) hmem
    rw [ZoneForm.text, List.append_nil, splitOffset, if_neg (hlast _ (hmark 'Z' (.inl rfl))),
      splitLastSign?_eq_none hsign]
    rfl
  | utc =>
    rw [ZoneForm.text, splitOffset, if_pos List.getLast?_concat, List.dropLast_concat]
    rfl
  | offset negative colon hour minute =>
    have hrest : ∀ c ∈ ZoneForm.unsignedText colon hour minute, ¬(c = 'Z' ∨ c = '+' ∨ c = '-') := by
      intro c hmem hc
      rcases ZoneForm.mem_unsignedText hmem with hdigit | rfl
      · rcases hc with rfl | rfl | rfl <;> cases hdigit
      · simp at hc
    have hutc : 'Z' ∉ clock.text ++ (ZoneForm.offset negative colon hour minute).text := by
      intro hmem
      rcases List.mem_append.mp hmem with hclock | hzone
      · exact hmark 'Z' (.inl rfl) hclock
      · rcases List.mem_cons.mp hzone with hsign | hunsigned
        · cases negative <;> cases hsign
        · exact hrest 'Z' hunsigned (.inl rfl)
    have hblank : trim (ZoneForm.offset negative colon hour minute).text =
        (ZoneForm.offset negative colon hour minute).text := Text.trim_of_forall fun _ => ZoneForm.not_isBlank
    have hsplit : splitLastSign? (clock.text ++ (ZoneForm.offset negative colon hour minute).text) =
        some (clock.text, (ZoneForm.offset negative colon hour minute).text) :=
      splitLastSign?_append (by cases negative <;> simp) (fun c h hc => hrest c h (.inr hc)) clock.text
    rw [splitOffset, if_neg (hlast _ hutc), hsplit]
    dsimp only
    rw [hblank, readLenientOffset_text]
    rfl

/-! ### Times -/

theorem notMem_padded {c : Char} (hc : c.isDigit = false) (width n : Nat) : c ∉ padded width n := fun h => by
  rw [Text.isDigit_of_mem_padded h] at hc
  cases hc

theorem unsigned?_field (field : Fin 100) : unsigned? Range.unsigned32 (padded 2 field) = some field.val :=
  Text.unsigned?_padded 2 (Nat.lt_trans field.isLt (by decide))

theorem fractionOf?_digitText (second : Fin 100) (digit : Fin 10) (digits : List (Fin 10)) :
    fractionOf? ((digit :: digits).map SecondForm.digitText) =
      some (SecondForm.millisecond ⟨second, digit :: digits⟩) := by
  have hdigits := @takeDigits_digitText (digit :: digits) [] (by simp)
  rw [List.append_nil] at hdigits
  rw [fractionOf?, hdigits]
  exact congrArg some (millisOfFraction_digits ⟨second, digit :: digits⟩)

/-- A time is read if it exists. -/
theorem clockOf?_text (clock : ClockForm) :
    clockOf? clock.text = if clock.clock.exists? then some clock.clock else none := by
  have htrim : trim clock.text = clock.text := Text.trim_of_forall fun _ => ClockForm.not_isBlank
  have hpoint := @notMem_padded '.' rfl 2
  have hcolon := @notMem_padded ':' rfl 2
  obtain ⟨hour, minute, _ | ⟨second, fraction⟩⟩ := clock
  · have hsplit : splitFirst? '.' (padded 2 hour ++ ':' :: padded 2 minute) = none :=
      splitFirst?_eq_none (by simp [hpoint])
    have hparts : splitAll ':' (padded 2 hour ++ ':' :: padded 2 minute) =
        [padded 2 hour, padded 2 minute] := by
      rw [splitAll_append (hcolon _), splitAll_of_notMem (hcolon _)]
    have hzero : unsigned? Range.unsigned32 ['0'] = some 0 := rfl
    rw [clockOf?, htrim]
    simp only [ClockForm.text, List.append_nil, hsplit, hparts, unsigned?_field, hzero,
      Option.bind_eq_bind, Option.bind_some]
    rfl
  · have hparts : splitAll ':' (padded 2 hour ++ ':' :: (padded 2 minute ++ ':' :: padded 2 second)) =
        [padded 2 hour, padded 2 minute, padded 2 second] := by
      rw [splitAll_append (hcolon _), splitAll_append (hcolon _), splitAll_of_notMem (hcolon _)]
    have hmain : '.' ∉ padded 2 hour ++ ':' :: (padded 2 minute ++ ':' :: padded 2 second) := by
      simp [hpoint]
    rw [clockOf?, htrim]
    cases fraction with
    | nil =>
      simp only [ClockForm.text, SecondForm.text, SecondForm.fractionText, List.append_nil,
        splitFirst?_eq_none hmain, hparts, unsigned?_field, Option.bind_eq_bind, Option.bind_some]
      rfl
    | cons digit digits =>
      have htext : (ClockForm.mk hour minute (some ⟨second, digit :: digits⟩)).text =
          (padded 2 hour ++ ':' :: (padded 2 minute ++ ':' :: padded 2 second)) ++
            '.' :: (digit :: digits).map SecondForm.digitText := by
        simp [ClockForm.text, SecondForm.text, SecondForm.fractionText]
      simp only [htext, splitFirst?_append hmain, fractionOf?_digitText second, hparts, unsigned?_field,
        Option.map_some, Option.bind_eq_bind, Option.bind_some]
      rfl

/-! ### Date-times -/

/-- The lenient reader takes a written timestamp whose date and time exist and whose offset is below a day. -/
theorem readLenient_text (form : Form) : readLenient form.text =
    if form.date.date.exists? ∧ form.clock.exists? ∧ form.offset.natAbs < 86400 then
      Instant.ofLocal? form.date.date form.clock form.offset
    else none := by
  obtain ⟨date, time⟩ := form
  have hmark : 'T' ∉ date.text := fun h => by
    rcases DateForm.mem_text h with h | h <;> cases h
  cases time with
  | none =>
    show readLenient (date.text ++ []) = _
    rw [List.append_nil, readLenient, splitFirst?_eq_none hmark]
    dsimp only
    rw [dateOf?_text]
    simp only [Form.clock, Form.offset]
    split <;> simp_all [Clock.exists?, Clock.midnight]
  | some time =>
    obtain ⟨clock, zone⟩ := time
    show readLenient (date.text ++ 'T' :: (clock.text ++ zone.text)) = _
    rw [readLenient, splitFirst?_append hmark]
    dsimp only
    rw [dateOf?_text, splitOffset_text]
    by_cases hdate : date.date.exists? = true <;> by_cases hclock : clock.clock.exists? = true <;>
      simp [clockOf?_text, Form.clock, Form.offset, hdate, hclock]

end DocIndex.Time
