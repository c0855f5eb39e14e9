import DocIndex.Time.Reader

/-!
# Timestamps

The calendar and clock components of an instant in UTC, as texts of fixed width. A year from 0 to
9999 has four digits; any other has a sign and six.
-/

namespace DocIndex

/-- The components of an instant. -/
structure Timestamp where
  /-- The year, in four digits or with a sign in six. -/
  year : String
  /-- The month, in two digits. -/
  month : String
  /-- The day, in two digits. -/
  day : String
  /-- The hour, in two digits. -/
  hour : String
  /-- The minute, in two digits. -/
  minute : String
  /-- The second, in two digits. -/
  second : String
  /-- The millisecond, in three digits. -/
  millisecond : String
  deriving DecidableEq

namespace Timestamp

/-- A number with zeros in front of it up to a width. -/
def padded (width n : Nat) : String := String.ofList (Text.padded width n)

/-- A year's text. -/
def yearText (year : Int) : String :=
  if 0 ≤ year ∧ year ≤ 9999 then padded 4 year.toNat
  else String.ofList ((if year < 0 then '-' else '+') :: Text.padded 6 year.natAbs)

/-- The components of an instant in UTC. -/
def ofInstant (instant : Instant) : Timestamp where
  year := yearText instant.date.year
  month := padded 2 instant.date.month
  day := padded 2 instant.date.day
  hour := padded 2 instant.clock.hour
  minute := padded 2 instant.clock.minute
  second := padded 2 instant.clock.second
  millisecond := padded 3 instant.clock.millisecond

/-- The components of the instant that a value names. -/
def ofJson? (value : Json) : Option Timestamp :=
  (Time.instantOf? value).map ofInstant

/-- Year, month and day. -/
def date (t : Timestamp) : List String := [t.year, t.month, t.day]

/-- Hour, minute, second and millisecond. -/
def time (t : Timestamp) : List String := [t.hour, t.minute, t.second, t.millisecond]

/-- All seven components. -/
def datetime (t : Timestamp) : List String := t.date ++ t.time

end Timestamp

end DocIndex
