import DocIndex.Time.Date
import DocIndex.Time.Reader

/-!
# Dates and times of settings files

A date, a time of day, or both with a `T` or a space between them and perhaps an offset from UTC.
Seconds may be 60; a fraction of a second is cut after nine digits. A setting takes a date or time
as its text in one form, in which the fraction has no needless zeros.

A string may spell a date or time too, and more freely: the hour may be 24, a date alone may have
an offset, and the minutes of an offset have no limit of their own.
-/

namespace DocIndex.Toml

open Time (readFixed expect)

/-- A time of day. -/
structure DayTime where
  /-- The hour, from zero up to 24. -/
  hour : Nat
  /-- The minute, from zero. -/
  minute : Nat
  /-- The second, from zero up to 60. -/
  second : Nat
  /-- The billionths of a second. -/
  nanosecond : Nat
  deriving DecidableEq

/-- An offset from UTC. -/
inductive ZoneOffset where
  /-- None, by its letter. -/
  | utc
  /-- So many minutes. -/
  | minutes (count : Int)
  deriving DecidableEq

/-! ### Texts -/

/-- The text of a date. -/
def dateText (date : Date) : List Char :=
  Text.padded 4 date.year.toNat ++ '-' :: Text.padded 2 date.month ++
    '-' :: Text.padded 2 date.day

/-- The text of billionths, with a point in front; there is none for zero. -/
def fractionText (nanosecond : Nat) : List Char :=
  if nanosecond = 0 then []
  else '.' :: ((Text.padded 9 nanosecond).reverse.dropWhile (· == '0')).reverse

/-- The text of a time of day. -/
def DayTime.text (time : DayTime) : List Char :=
  Text.padded 2 time.hour ++ ':' :: Text.padded 2 time.minute ++
    ':' :: Text.padded 2 time.second ++ fractionText time.nanosecond

/-- The text of an offset. -/
def ZoneOffset.text : ZoneOffset → List Char
  | utc => ['Z']
  | minutes count =>
    (if count < 0 then '-' else '+') :: Text.padded 2 (count.natAbs / 60) ++
      ':' :: Text.padded 2 (count.natAbs % 60)

/-! ### Reading -/

/-- A date that exists. -/
def readDate (text : List Char) : Option (Date × List Char) := do
  let (year, text) ← readFixed 4 text
  let text ← expect '-' text
  let (month, text) ← readFixed 2 text
  let text ← expect '-' text
  let (day, text) ← readFixed 2 text
  let date : Date := ⟨year, month, day⟩
  if date.exists? then return (date, text) else none

/-- The billionths that a point and digits spell, if there are any. -/
def readNanoseconds (text : List Char) : Nat × List Char :=
  match text with
  | '.' :: rest =>
    match Text.takeDigits rest with
    | ([], _) => (0, text)
    | (digits, rest) => (Text.ofDigits ((digits ++ List.replicate 9 0).take 9), rest)
  | text => (0, text)

/-- A time of day with an hour below a limit. -/
def readDayTime (hours : Nat) (text : List Char) : Option (DayTime × List Char) := do
  let (hour, text) ← readFixed 2 text
  let text ← expect ':' text
  let (minute, text) ← readFixed 2 text
  let text ← expect ':' text
  let (second, text) ← readFixed 2 text
  let (nanosecond, text) := readNanoseconds text
  if hour < hours ∧ minute < 60 ∧ second ≤ 60 then
    return (⟨hour, minute, second, nanosecond⟩, text)
  else none

/-- The hours and minutes of an offset after its sign. -/
def readOffsetParts (text : List Char) : Option ((Nat × Nat) × List Char) := do
  let (hours, text) ← readFixed 2 text
  let text ← expect ':' text
  let (minutes, text) ← readFixed 2 text
  return ((hours, minutes), text)

/-- An offset of less than a day after its sign. -/
def readMinutes (sign : Int) (text : List Char) : Option (ZoneOffset × List Char) := do
  let ((hours, minutes), text) ← readOffsetParts text
  if hours < 24 ∧ minutes < 60 then return (.minutes (sign * (hours * 60 + minutes : Nat)), text)
  else none

/-- An offset. -/
def readOffset : List Char → Option (ZoneOffset × List Char)
  | 'Z' :: rest | 'z' :: rest => some (.utc, rest)
  | '+' :: rest => readMinutes 1 rest
  | '-' :: rest => readMinutes (-1) rest
  | _ => none

/-- A time of day after a date, and perhaps its offset. -/
def readClock (text : List Char) : Option (List Char × List Char) := do
  let text ← Time.readSeparator text
  let (time, text) ← readDayTime 24 text
  match readOffset text with
  | some (offset, text) => return ('T' :: time.text ++ offset.text, text)
  | none => return ('T' :: time.text, text)

/-- The text of the date or time at the front of a text. -/
def readDateTime (text : List Char) : Option (List Char × List Char) :=
  match readDate text with
  | some (date, rest) =>
    match readClock rest with
    | some (clock, rest) => some (dateText date ++ clock, rest)
    | none => some (dateText date, rest)
  | none => (readDayTime 24 text).map fun read => (read.1.text, read.2)

/-! ### Dates and times in strings -/

/-- The offset of at most a day that a text spells after its sign. -/
def minutesOf? (sign : Int) (text : List Char) : Option ZoneOffset :=
  match readOffsetParts text with
  | some ((hours, minutes), []) =>
    if hours * 60 + minutes ≤ 24 * 60 then some (.minutes (sign * (hours * 60 + minutes : Nat)))
    else none
  | _ => none

/-- The text of the offset that a text spells, which may be none. -/
def offsetTextOf? : List Char → Option (List Char)
  | [] => some []
  | ['Z'] | ['z'] => some ZoneOffset.utc.text
  | '+' :: rest => (minutesOf? 1 rest).map ZoneOffset.text
  | '-' :: rest => (minutesOf? (-1) rest).map ZoneOffset.text
  | _ => none

/-- The text of a time of day after a date; without a separator there is none. -/
def readTimeAfterDate (text : List Char) : Option (List Char × List Char) :=
  match Time.readSeparator text with
  | some rest => (readDayTime 25 rest).map fun read => ('T' :: read.1.text, read.2)
  | none => some ([], text)

/-- The text in one form of the date or time that a string spells. -/
def dateTimeOf? (text : List Char) : Option (List Char) :=
  match text with
  | _ :: _ :: ':' :: _ =>
    match readDayTime 25 text with
    | some (time, []) => some time.text
    | _ => none
  | text => do
    let (date, rest) ← readDate text
    let (time, rest) ← readTimeAfterDate rest
    return dateText date ++ time ++ (← offsetTextOf? rest)

end DocIndex.Toml
