import DocIndex.Proofs.Time.CheckedOffset

/-!
# Reading timestamps with every step checked

The lenient reader on bytes and machine words, from the fraction of a second to the whole text. A fraction has
only digits when it is read, so its milliseconds are there and their millionfold fits into its word
(`Time.checkedFraction_eq`); a lenient date at an offset below a day stays inside the calendar
(`Time.checkedLocal_eq`). So no text stops the reader but by being refused, and it gives what the reader on
characters gives (`Time.checkedOfText_eq`, `Timestamp.read_without_trap`).
-/

namespace DocIndex

namespace Time

open Text (ofDigits unsigned? trim isDigitByte)

theorem orRefuse_eq_ok_iff {α : Type} {part : Option α} {value : α} :
    orRefuse part = .ok value ↔ part = some value := by
  cases part <;> simp

/-! ### Fractions -/

/-- The first three characters of a text, with zeros behind them up to three. -/
def threeDigits (text : List Char) : List Char :=
  text.take 3 ++ List.replicate (3 - (text.take 3).length) '0'

/-- The nanoseconds of a fraction. -/
def checkedFraction (fraction : List Char) : Except Halt Nat :=
  if fraction.isEmpty || !(utf8Bytes fraction).all isDigitByte then .error .refused
  else do
    let millis ← orTrap .fraction (unsigned? Range.unsigned32 (threeDigits fraction))
    unsigned32 (millis * 1000000)

theorem threeDigits_eq (text : List Char) : threeDigits text = (text ++ ['0', '0', '0']).take 3 := by
  rw [threeDigits, List.take_append, List.length_take, show ['0', '0', '0'] = List.replicate 3 '0' from rfl,
    List.take_replicate]
  congr 2
  omega

theorem length_threeDigits (text : List Char) : (threeDigits text).length = 3 := by
  rw [threeDigits_eq, List.length_take, List.length_append]
  exact Nat.min_eq_left (Nat.le_add_left 3 text.length)

theorem isDigit_of_mem_threeDigits {text : List Char} (h : ∀ c ∈ text, c.isDigit = true) :
    ∀ c ∈ threeDigits text, c.isDigit = true := by
  intro c hc
  rcases List.mem_append.mp hc with hc | hc
  · exact h c (List.mem_of_mem_take hc)
  · rw [(List.mem_replicate.mp hc).2]
    rfl

/-- A fraction spells what its first three digits spell. -/
theorem fractionOf?_of_isDigit {text : List Char} (hne : text ≠ []) (h : ∀ c ∈ text, c.isDigit = true) :
    fractionOf? text = some (ofDigits ((threeDigits text).map fun c => c.toNat - 48)) := by
  have htake := @Text.takeDigits_append text [] h (by simp)
  rw [List.append_nil] at htake
  rw [fractionOf?, htake, threeDigits_eq, List.map_take, List.map_append]
  cases text with
  | nil => exact absurd rfl hne
  | cons c text => rfl

theorem fractionOf?_eq_none {text : List Char} (h : ¬(text ≠ [] ∧ ∀ c ∈ text, c.isDigit = true)) :
    fractionOf? text = none := by
  obtain ⟨digits, rest, rfl, hdigits, -, htake⟩ := Text.exists_takeDigits_eq text
  rw [fractionOf?, htake]
  split
  · rfl
  · rename_i hne hparts
    obtain ⟨rfl, rfl⟩ := Prod.mk.inj hparts
    rw [List.append_nil] at h
    refine absurd ⟨?_, hdigits⟩ h
    rintro rfl
    exact hne rfl
  · rfl

theorem unsigned32_millionfold {n : Nat} (h : n < 1000) : unsigned32 (n * 1000000) = .ok (n * 1000000) := by
  have hlimit : 1000 * 1000000 < Range.unsigned32 := by decide
  have hmillionfold : n * 1000000 < 1000 * 1000000 := Nat.mul_lt_mul_of_pos_right h (by decide)
  exact if_pos (Nat.lt_trans hmillionfold hlimit)

/-- Three digits are read, and their millionfold is below the limit of the word. -/
theorem checkedFraction_eq (text : List Char) :
    checkedFraction text = orRefuse ((fractionOf? text).map fun millis => millis * 1000000) := by
  unfold checkedFraction
  by_cases h : text ≠ [] ∧ ∀ c ∈ text, c.isDigit = true
  · have hdigits := isDigit_of_mem_threeDigits h.2
    have hmillis := Text.ofDigits_lt hdigits
    have hne : threeDigits text ≠ [] := List.ne_nil_of_length_eq_add_one (length_threeDigits text)
    have hlimit : 1000 < Range.unsigned32 := by decide
    rw [length_threeDigits, show 10 ^ 3 = 1000 from rfl] at hmillis
    rw [fractionOf?_of_isDigit h.1 h.2, Text.unsigned?_of_isDigit hne hdigits, if_neg,
      if_pos (Nat.lt_trans hmillis hlimit), orTrap_some, ok_bind, unsigned32_millionfold hmillis]
    · rfl
    · simpa [← Text.all_isDigitByte_iff] using h
  · rw [fractionOf?_eq_none h, if_pos]
    · rfl
    · rw [← Text.all_isDigitByte_iff] at h
      simpa [imp_iff_not_or] using h

/-! ### Times -/

/-- The milliseconds of a fraction that may be missing. -/
def millisOf? : Option (List Char) → Option Nat
  | some fraction => fractionOf? fraction
  | none => some 0

/-- The nanoseconds of a fraction that may be missing. -/
def checkedNanoseconds : Option (List Char) → Except Halt Nat
  | some fraction => checkedFraction fraction
  | none => .ok 0

/-- The time of day that the texts of its parts and of its fraction give. -/
def checkedParts (hour minute second : List Char) (fraction : Option (List Char)) : Except Halt Clock := do
  let hour ← orRefuse (unsigned? Range.unsigned32 hour)
  let minute ← orRefuse (unsigned? Range.unsigned32 minute)
  let second ← orRefuse (unsigned? Range.unsigned32 second)
  let nanoseconds ← checkedNanoseconds fraction
  let clock : Clock := ⟨hour, minute, second, nanoseconds / 1000000⟩
  orRefuse (if clock.exists? then some clock else none)

/-- Hours, minutes and perhaps seconds, with an optional fraction. -/
def checkedClock (text : List Char) : Except Halt Clock :=
  if (trim text).isEmpty then .error .refused
  else
    let (main, fraction) :=
      match splitFirst? '.' (trim text) with
      | some (main, fraction) => (main, some fraction)
      | none => (trim text, none)
    match splitAll ':' main with
    | [hour, minute] => checkedParts hour minute ['0'] fraction
    | [hour, minute, second] => checkedParts hour minute second fraction
    | _ => .error .refused

theorem checkedNanoseconds_eq (fraction : Option (List Char)) :
    checkedNanoseconds fraction = orRefuse ((millisOf? fraction).map fun millis => millis * 1000000) := by
  cases fraction with
  | none => rfl
  | some fraction => exact checkedFraction_eq fraction

/-- The parts may be read in any order, since each of them is only refused. -/
theorem checkedParts_eq (hour minute second : List Char) (fraction : Option (List Char)) :
    checkedParts hour minute second fraction = orRefuse (do
      let millisecond ← millisOf? fraction
      let clock : Clock :=
        ⟨← unsigned? Range.unsigned32 hour, ← unsigned? Range.unsigned32 minute,
          ← unsigned? Range.unsigned32 second, millisecond⟩
      if clock.exists? then return clock else none) := by
  rw [checkedParts, checkedNanoseconds_eq]
  cases unsigned? Range.unsigned32 hour <;> cases unsigned? Range.unsigned32 minute <;>
    cases unsigned? Range.unsigned32 second <;> cases millisOf? fraction <;> simp

theorem checkedClock_eq (text : List Char) : checkedClock text = orRefuse (clockOf? text) := by
  unfold checkedClock clockOf?
  split
  · rename_i hempty
    rw [List.isEmpty_iff.mp hempty]
    rfl
  · cases hpoint : splitFirst? '.' (trim text) with
    | none =>
      dsimp only
      split <;> simp [checkedParts_eq, millisOf?, *]
    | some parts =>
      dsimp only
      cases hfraction : fractionOf? parts.2 <;> split <;> simp [checkedParts_eq, millisOf?, *]

theorem exists?_of_checkedParts {hour minute second : List Char} {fraction : Option (List Char)}
    {clock : Clock} (h : checkedParts hour minute second fraction = .ok clock) : clock.exists? = true := by
  rw [checkedParts_eq, orRefuse_eq_ok_iff] at h
  simp only [Option.bind_eq_bind, Option.bind_eq_some_iff, Option.ite_none_right_eq_some] at h
  obtain ⟨_, -, _, -, _, -, _, -, hexists, heq⟩ := h
  cases heq
  exact hexists

/-- A lenient time exists. -/
theorem exists?_of_clockOf? {text : List Char} {clock : Clock} (h : clockOf? text = some clock) :
    clock.exists? = true := by
  have hchecked : checkedClock text = .ok clock := by rw [checkedClock_eq, h, orRefuse_some]
  unfold checkedClock at hchecked
  split at hchecked
  · cases hchecked
  · dsimp only at hchecked
    split at hchecked
    · exact exists?_of_checkedParts hchecked
    · exact exists?_of_checkedParts hchecked
    · cases hchecked

/-! ### Date-times -/

/-- The instant of a date and a time at an offset. -/
def checkedLocal (date : Date) (clock : Clock) (offset : Int) : Except Halt Instant :=
  orTrap .calendar (Instant.ofLocal? date clock offset)

/-- The instant of a date and a time at an offset that may be missing. -/
def checkedAt (date : Date) (clock : Clock) : Option Int → Except Halt Instant
  | some offset => if offset.natAbs < 86400 then checkedLocal date clock offset else .error .refused
  | none => checkedLocal date clock 0

/-- The instant that a lenient date-time names. -/
def checkedLenient (text : List Char) : Except Halt Instant :=
  match splitFirst? 'T' text with
  | none => do
    let date ← orRefuse (dateOf? text)
    checkedLocal date Clock.midnight 0
  | some (dateText, rest) => do
    let date ← orRefuse (dateOf? dateText)
    let (time, offset) ← checkedSplitOffset rest
    let clock ← checkedClock time
    checkedAt date clock offset

/-- The instant that a text names, blanks at its ends aside. -/
def checkedOfText (text : List Char) : Except Halt Instant :=
  if (trim text).isEmpty then .error .refused
  else
    match readRfc3339 (trim text) with
    | some instant => .ok instant
    | none => checkedLenient (trim text)

/-- A lenient date and a time that exists are in the calendar at every offset below a day. -/
theorem checkedLocal_eq {dateText : List Char} {date : Date} {clock : Clock} {offset : Int}
    (hdate : dateOf? dateText = some date) (hclock : clock.exists? = true) (hoffset : offset.natAbs < 86400) :
    checkedLocal date clock offset = orRefuse (Instant.ofLocal? date clock offset) := by
  obtain ⟨hexists, hyear⟩ := dateOf?_spec hdate
  have hmem := Instant.local_mem hexists hyear hclock hoffset
  rw [checkedLocal, Instant.ofLocal?, Instant.ofMillis?, if_pos hmem, orTrap_some, orRefuse_some]

theorem checkedAt_eq {dateText : List Char} {date : Date} {clock : Clock} (hdate : dateOf? dateText = some date)
    (hclock : clock.exists? = true) (offset : Option Int) : checkedAt date clock offset =
      orRefuse (if (offset.getD 0).natAbs < 86400 then Instant.ofLocal? date clock (offset.getD 0) else none) := by
  cases offset with
  | none => exact checkedLocal_eq hdate hclock (by decide)
  | some seconds =>
    rw [checkedAt, Option.getD_some]
    split
    · rename_i hoffset
      exact checkedLocal_eq hdate hclock hoffset
    · rfl

theorem checkedLenient_eq (text : List Char) : checkedLenient text = orRefuse (readLenient text) := by
  unfold checkedLenient readLenient
  cases splitFirst? 'T' text with
  | none =>
    dsimp only
    cases hdate : dateOf? text with
    | none => rfl
    | some date => exact checkedLocal_eq hdate rfl (by decide)
  | some parts =>
    dsimp only
    cases hdate : dateOf? parts.1 with
    | none => rfl
    | some date =>
      rcases checkedSplitOffset_cases parts.2 with ⟨hchecked, hsplit⟩ | ⟨time, offset, hchecked, hsplit⟩
      · rw [hchecked, hsplit]
        rfl
      · rw [hchecked, hsplit]
        simp only [orRefuse_some, ok_bind, Option.bind_eq_bind, Option.bind_some]
        rw [checkedClock_eq]
        cases hclock : clockOf? time with
        | none => rfl
        | some clock =>
          rw [orRefuse_some, ok_bind, Option.bind_some]
          exact checkedAt_eq hdate (exists?_of_clockOf? hclock) offset

theorem checkedOfText_eq (text : List Char) : checkedOfText text = orRefuse (ofText? text) := by
  unfold checkedOfText ofText?
  split
  · rename_i hempty
    rw [List.isEmpty_iff.mp hempty]
    rfl
  · cases readRfc3339 (trim text) with
    | none => exact checkedLenient_eq (trim text)
    | some instant => rfl

/-! ### Instants of the calendar -/

theorem mem_of_readRfc3339 {text : List Char} {instant : Instant} (h : readRfc3339 text = some instant) :
    Instant.first ≤ instant.millis ∧ instant.millis ≤ Instant.last := by
  rw [readRfc3339_eq] at h
  simp only [Option.bind_eq_bind, Option.bind_eq_some_iff, Option.ite_none_right_eq_some] at h
  obtain ⟨_, -, _, -, _, -, _, -, _, -, -, h⟩ := h
  exact Instant.mem_of_ofLocal? h

theorem mem_of_readLenient {text : List Char} {instant : Instant} (h : readLenient text = some instant) :
    Instant.first ≤ instant.millis ∧ instant.millis ≤ Instant.last := by
  unfold readLenient at h
  split at h
  · obtain ⟨date, -, h⟩ := Option.bind_eq_some_iff.mp h
    exact Instant.mem_of_ofLocal? h
  · simp only [Option.bind_eq_bind, Option.bind_eq_some_iff, Option.ite_none_right_eq_some] at h
    obtain ⟨_, -, _, -, _, -, -, h⟩ := h
    exact Instant.mem_of_ofLocal? h

/-- Every instant that is read is one of the calendar. -/
theorem mem_of_ofText? {text : List Char} {instant : Instant} (h : ofText? text = some instant) :
    Instant.first ≤ instant.millis ∧ instant.millis ≤ Instant.last := by
  unfold ofText? at h
  split at h
  · rename_i hread
    cases h
    exact mem_of_readRfc3339 hread
  · exact mem_of_readLenient h

end Time

/-- **Reading a timestamp never traps.** Whatever the text is, every slice is cut between two characters, every
number fits into its word, the digits of a fraction are a number, and the offset leads to a point of the calendar:
reading it with these steps checked gives what reading it gives. So the text is refused, or it names an
instant of the calendar. -/
theorem Timestamp.read_without_trap (text : String) :
    Time.checkedOfText text.toList = Time.orRefuse (Time.ofText? text.toList) ∧
      (∀ trap, Time.checkedOfText text.toList ≠ .error (.trapped trap)) ∧
      ((Time.checkedOfText text.toList = .error .refused ∧ ofJson? (.str text) = none) ∨
        ∃ instant, Time.checkedOfText text.toList = .ok instant ∧
          Instant.first ≤ instant.millis ∧ instant.millis ≤ Instant.last ∧
          ofJson? (.str text) = some (ofInstant instant) ∧
          ∃ date clock, (ofInstant instant).Shows date clock ∧ date.exists? = true ∧ clock.exists? = true) := by
  have hjson : ofJson? (.str text) = (Time.ofText? text.toList).map ofInstant := rfl
  rw [Time.checkedOfText_eq, hjson]
  cases hread : Time.ofText? text.toList with
  | none => exact ⟨rfl, nofun, .inl ⟨rfl, rfl⟩⟩
  | some instant =>
    obtain ⟨hfirst, hlast⟩ := Time.mem_of_ofText? hread
    obtain ⟨date, clock, hshows, hdate, hclock, -⟩ := exists_shown_ofInstant hfirst hlast
    exact ⟨rfl, nofun, .inr ⟨instant, rfl, hfirst, hlast, rfl, date, clock, hshows, hdate, hclock⟩⟩

/-- Five bytes of which two are one character: only the guard on ASCII keeps the slices out of it. -/
example : Time.checkedOfText "2024-01-05T10:00+aé0".toList = .error .refused ∧
    Time.checkedSeconds 3 "+aé0".toList = .error (.trapped .slice) := by
  decide

end DocIndex
