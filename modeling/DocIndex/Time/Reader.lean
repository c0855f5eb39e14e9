import DocIndex.Number.Range
import DocIndex.Text.Blank
import DocIndex.Text.Digit
import DocIndex.Time.Instant

/-!
# Reading timestamps

A timestamp text is first read as a full date-time of RFC 3339, in which every number has its exact
width and second 60 is a leap second. Any other text is read leniently: a date, or a date, a `T`, a
time and perhaps an offset from UTC, each part trimmed. A lenient date is `YYYY`, `YYYY-MM` or
`YYYY-MM-DD` by its length in bytes; the year may carry a sign and then any number of digits, a
month or day may be one digit, and blanks may stand before each number. A lenient offset is a sign
and two numbers of two digits with a colon between them or none; its minutes have no limit of their
own, only the whole offset has to stay below a day.
-/

namespace DocIndex.Time

open Text (digit? takeDigits ofDigits natural? unsigned? trim trimStart)

/-! ### Parts -/

/-- A number of exactly `width` digits at the front of a text. -/
def readFixed (width : Nat) (text : List Char) : Option (Nat × List Char) :=
  match text.take width |>.mapM digit? with
  | some digits => if digits.length = width then some (ofDigits digits, text.drop width) else none
  | none => none

/-- A number of one to `width` digits at the front of a text. -/
def readUpTo (width : Nat) (text : List Char) : Option (Nat × List Char) :=
  match ((takeDigits text).1).take width with
  | [] => none
  | digits => some (ofDigits digits, text.drop digits.length)

/-- A given character at the front of a text. -/
def expect (c : Char) : List Char → Option (List Char)
  | d :: rest => if d = c then some rest else none
  | [] => none

/-- The milliseconds that the digits of a fraction spell; digits after the third do not count. -/
def millisOfFraction (digits : List Nat) : Nat :=
  ofDigits ((digits ++ [0, 0, 0]).take 3)

/-! ### RFC 3339 -/

/-- One of the three characters between the date and the time. -/
def readSeparator : List Char → Option (List Char)
  | 'T' :: rest | 't' :: rest | ' ' :: rest => some rest
  | _ => none

/-- A point and at least one digit, or nothing. -/
def readFraction : List Char → Option (Nat × List Char)
  | '.' :: text =>
    match takeDigits text with
    | ([], _) => none
    | (digits, rest) => some (millisOfFraction digits, rest)
  | text => some (0, text)

/-- Hours, a colon and minutes, with the sign that stood before them, in seconds. -/
def readOffsetDigits (sign : Int) (text : List Char) : Option (Int × List Char) := do
  let (hours, text) ← readFixed 2 text
  let text ← expect ':' text
  let (minutes, text) ← readFixed 2 text
  if minutes < 60 ∧ hours < 24 then return (sign * (hours * 3600 + minutes * 60 : Nat), text)
  else none

/-- The mark of UTC, or an offset; the sign may also be the mathematical minus. -/
def readOffset : List Char → Option (Int × List Char)
  | 'Z' :: rest | 'z' :: rest => some (0, rest)
  | '+' :: rest => readOffsetDigits 1 rest
  | '-' :: rest | '\u2212' :: rest => readOffsetDigits (-1) rest
  | _ => none

/-- The time of day with seconds up to 60; the leap second is the last millisecond of second 59. -/
def clockWithLeap? (hour minute second millisecond : Nat) : Option Clock :=
  let clock : Clock :=
    if second = 60 then ⟨hour, minute, 59, 999⟩ else ⟨hour, minute, second, millisecond⟩
  if clock.exists? then some clock else none

/-- The instant that a date-time of RFC 3339 names. -/
def readRfc3339 (text : List Char) : Option Instant := do
  let (year, text) ← readFixed 4 text
  let text ← expect '-' text
  let (month, text) ← readFixed 2 text
  let text ← expect '-' text
  let (day, text) ← readFixed 2 text
  let text ← readSeparator text
  let (hour, text) ← readFixed 2 text
  let text ← expect ':' text
  let (minute, text) ← readFixed 2 text
  let text ← expect ':' text
  let (second, text) ← readFixed 2 text
  let (millisecond, text) ← readFraction text
  let (offset, text) ← readOffset text
  let date : Date := ⟨year, month, day⟩
  let clock ← clockWithLeap? hour minute second millisecond
  if text.isEmpty ∧ date.exists? then Instant.ofLocal? date clock offset else none

/-! ### Lenient dates -/

/-- A year: after a sign any number of digits, without one up to four. -/
def readYear : List Char → Option (Int × List Char)
  | '-' :: text => (readUpTo text.length text).map fun read => (-(read.1 : Int), read.2)
  | '+' :: text => (readUpTo text.length text).map fun read => ((read.1 : Int), read.2)
  | text => (readUpTo 4 text).map fun read => ((read.1 : Int), read.2)

/-- A year, a month and a day with hyphens between them, and blanks before each. -/
def readDate (text : List Char) : Option Date := do
  let (year, text) ← readYear (trimStart text)
  let text ← expect '-' text
  let (month, text) ← readUpTo 2 (trimStart text)
  let text ← expect '-' text
  let (day, text) ← readUpTo 2 (trimStart text)
  let date : Date := ⟨year, month, day⟩
  if text.isEmpty ∧ date.exists? then return date else none

/-- The length of a text in UTF-8. -/
def byteLength (text : List Char) : Nat := text.foldl (fun length c => length + c.utf8Size) 0

/-- A date of four, seven or ten bytes; a missing month or day is the first. -/
def dateOf? (text : List Char) : Option Date :=
  let text := trim text
  match byteLength text with
  | 4 => readDate (text ++ ['-', '0', '1', '-', '0', '1'])
  | 7 => readDate (text ++ ['-', '0', '1'])
  | 10 => readDate text
  | _ => none

/-! ### Lenient times -/

/-- The parts of a text between the occurrences of a character. -/
def splitAll (mark : Char) : List Char → List (List Char)
  | [] => [[]]
  | c :: rest =>
    if c = mark then [] :: splitAll mark rest
    else
      match splitAll mark rest with
      | [] => [[c]]
      | part :: parts => (c :: part) :: parts

/-- The parts of a text before and after the first occurrence of a character. -/
def splitFirst? (mark : Char) : List Char → Option (List Char × List Char)
  | [] => none
  | c :: rest =>
    if c = mark then some ([], rest)
    else (splitFirst? mark rest).map fun parts => (c :: parts.1, parts.2)

/-- The part of a text before its last sign, and the rest from the sign on. -/
def splitLastSign? : List Char → Option (List Char × List Char)
  | [] => none
  | c :: rest =>
    match splitLastSign? rest with
    | some (before, signed) => some (c :: before, signed)
    | none => if c = '+' ∨ c = '-' then some ([], c :: rest) else none

/-- The offset that a sign and four digits give, in seconds. -/
def offsetOf? (sign h₁ h₂ m₁ m₂ : Char) : Option Int := do
  let hours ← natural? [h₁, h₂]
  let minutes ← natural? [m₁, m₂]
  let seconds : Int := (hours * 3600 + minutes * 60 : Nat)
  return if sign = '-' then -seconds else seconds

/-- A trimmed offset with its sign. -/
def readLenientOffset (text : List Char) : Option Int :=
  match text with
  | [sign, h₁, h₂, ':', m₁, m₂] => offsetOf? sign h₁ h₂ m₁ m₂
  | [sign, h₁, h₂, m₁, m₂] => offsetOf? sign h₁ h₂ m₁ m₂
  | _ => none

/-- The text of a time and the offset that follows it; without one the time is in UTC. -/
def splitOffset (text : List Char) : Option (List Char × Int) :=
  if text.getLast? = some 'Z' then some (text.dropLast, 0)
  else
    match splitLastSign? text with
    | some (time, signed) => (readLenientOffset (trim signed)).map fun offset => (time, offset)
    | none => some (text, 0)

/-- The milliseconds of a fraction: one or more digits. -/
def fractionOf? (text : List Char) : Option Nat :=
  match takeDigits text with
  | ([], _) => none
  | (digits, []) => some (millisOfFraction digits)
  | _ => none

/-- Hours, minutes and perhaps seconds, with an optional fraction after the last of them. -/
def clockOf? (text : List Char) : Option Clock := do
  let (main, millisecond) ←
    match splitFirst? '.' (trim text) with
    | some (main, fraction) => (fractionOf? fraction).map fun millisecond => (main, millisecond)
    | none => some (trim text, 0)
  let (hour, minute, second) ←
    match splitAll ':' main with
    | [hour, minute] => some (hour, minute, ['0'])
    | [hour, minute, second] => some (hour, minute, second)
    | _ => none
  let clock : Clock :=
    ⟨← unsigned? Range.unsigned32 hour, ← unsigned? Range.unsigned32 minute,
      ← unsigned? Range.unsigned32 second, millisecond⟩
  if clock.exists? then return clock else none

/-- The instant that a lenient date-time names. -/
def readLenient (text : List Char) : Option Instant :=
  match splitFirst? 'T' text with
  | none => (dateOf? text).bind fun date => Instant.ofLocal? date Clock.midnight 0
  | some (dateText, rest) => do
    let date ← dateOf? dateText
    let (time, offset) ← splitOffset rest
    let clock ← clockOf? time
    if offset.natAbs < 86400 then Instant.ofLocal? date clock offset else none

/-! ### Texts and values -/

/-- The instant that a text names, blanks at its ends aside. -/
def ofText? (text : List Char) : Option Instant :=
  match readRfc3339 (trim text) with
  | some instant => some instant
  | none => readLenient (trim text)

/-- The instant that a value names: a number of milliseconds or a timestamp text. -/
def instantOf? : Json → Option Instant
  | .num number => Instant.ofNumber? number
  | .str text => ofText? text.toList
  | _ => none

end DocIndex.Time
