import DocIndex.Time.Date
import DocIndex.Json.Basic

/-!
# Instants

Points of time in milliseconds since 1970-01-01T00:00:00Z, as far as the calendar reaches, and the
time of a day. A leap second is the last millisecond of the second before it.
-/

namespace DocIndex

/-- The time of a day. -/
structure Clock where
  /-- The hour. -/
  hour : Nat
  /-- The minute. -/
  minute : Nat
  /-- The second. -/
  second : Nat
  /-- The millisecond. -/
  millisecond : Nat
  deriving DecidableEq

namespace Clock

/-- Whether every part is below its limit. -/
def exists? (clock : Clock) : Bool :=
  decide (clock.hour < 24 ∧ clock.minute < 60 ∧ clock.second < 60 ∧ clock.millisecond < 1000)

/-- Midnight. -/
def midnight : Clock := ⟨0, 0, 0, 0⟩

/-- The milliseconds since midnight. -/
def toMillis (clock : Clock) : Nat :=
  clock.hour * 3600000 + clock.minute * 60000 + clock.second * 1000 + clock.millisecond

/-- The time of day at a number of milliseconds after midnight. -/
def ofMillis (millis : Nat) : Clock :=
  ⟨millis / 3600000, millis / 60000 % 60, millis / 1000 % 60, millis % 1000⟩

end Clock

/-- A point of time, in milliseconds since 1970-01-01T00:00:00Z. -/
structure Instant where
  /-- The milliseconds. -/
  millis : Int
  deriving DecidableEq

namespace Instant

/-- The milliseconds of a day. -/
def millisPerDay : Int := 86400000

/-- The first millisecond of the calendar. -/
def first : Int := (Date.mk Date.firstYear 1 1).dayNumber * millisPerDay

/-- The last millisecond of the calendar. -/
def last : Int := ((Date.mk Date.lastYear 12 31).dayNumber + 1) * millisPerDay - 1

/-- The instant at a number of milliseconds, if the calendar reaches it. -/
def ofMillis? (millis : Int) : Option Instant :=
  if first ≤ millis ∧ millis ≤ last then some ⟨millis⟩ else none

/-- The instant at which clocks that are `offset` seconds ahead show a date and a time. -/
def ofLocal? (date : Date) (clock : Clock) (offset : Int) : Option Instant :=
  ofMillis? (date.dayNumber * millisPerDay + clock.toMillis - offset * 1000)

/-- The date in UTC. -/
def date (instant : Instant) : Date := Date.ofDayNumber (instant.millis / millisPerDay)

/-- The time of day in UTC. -/
def clock (instant : Instant) : Clock := Clock.ofMillis (instant.millis % millisPerDay).toNat

/-! ### Numbers -/

/-- The largest number of milliseconds, in either direction, that a number may stand for. -/
def numberLimit : Nat := 8640000000000000

/-- The instant that a number of milliseconds stands for, its fraction dropped. -/
def ofNumber? (number : Number) : Option Instant :=
  match number.toDouble? with
  | some millis => if millis.absLe numberLimit then ofMillis? millis.trunc else none
  | none => none

end Instant

end DocIndex
