import DocIndex.Json.Parser
import DocIndex.Settings.Value

/-!
# Numbers of settings files

Integers of sixty-four bits, in decimal or after `0x`, `0o` or `0b`, and decimals with a fraction,
an exponent or both. Underscores may stand between two digits. A decimal integer has no needless
zero in front, and there are digits on both sides of a point.
-/

namespace DocIndex.Toml

/-! ### Digits -/

/-- The digits at the front of a text, with single underscores between them. -/
def readRun (digit? : Char → Option Nat) : List Char → Option (List Nat × List Char)
  | [] => some ([], [])
  | '_' :: rest =>
    match rest with
    | c :: _ => if (digit? c).isSome then readRun digit? rest else none
    | [] => none
  | c :: rest =>
    match digit? c with
    | some d => (readRun digit? rest).map fun read => (d :: read.1, read.2)
    | none => some ([], c :: rest)

/-- One or more digits. -/
def readDigits (digit? : Char → Option Nat) (text : List Char) : Option (List Nat × List Char) :=
  match text with
  | c :: _ => if (digit? c).isSome then readRun digit? text else none
  | [] => none

/-- The digits of a decimal integer: a zero, or digits that start with another one. -/
def readWhole (text : List Char) : Option (List Nat × List Char) :=
  match text with
  | '0' :: rest => some ([0], rest)
  | text => readDigits Text.digit? text

/-- The number that digits of a base spell. -/
def ofDigits (base : Nat) (digits : List Nat) : Nat := digits.foldl (fun n d => n * base + d) 0

/-- A digit of a base up to sixteen. -/
def digitBelow? (base : Nat) (c : Char) : Option Nat :=
  (Json.hexValue? c).bind fun d => if d < base then some d else none

/-! ### Numbers -/

/-- An integer of sixty-four bits. -/
def integer? (negative : Bool) (magnitude : Nat) : Option SettingValue :=
  let n : Int := if negative then -(magnitude : Int) else magnitude
  if -(Range.signed64 : Int) ≤ n ∧ n < Range.signed64 then some (.int n) else none

/-- An integer after the two characters that name its base. -/
def readBased (base : Nat) (text : List Char) : Option (SettingValue × List Char) := do
  let (digits, rest) ← readDigits (digitBelow? base) text
  return (← integer? false (ofDigits base digits), rest)

/-- A point and digits, or nothing. -/
def readFraction (text : List Char) : Option (List Nat × List Char) :=
  match text with
  | '.' :: text => readDigits Text.digit? text
  | text => some ([], text)

/-- A mark, a sign and digits, or nothing. -/
def readExponent (text : List Char) : Option (Int × List Char) :=
  match text with
  | 'e' :: text | 'E' :: text => do
    let (negative, text) := SettingValue.splitSign text
    let (digits, rest) ← readDigits Text.digit? text
    let n := Text.ofDigits digits
    return (if negative then -(n : Int) else n, rest)
  | text => some (0, text)

/-- A decimal that is not too large; one below all doubles is minus infinity. -/
def decimal? (negative : Bool) (digits : List Nat) (exponent : Int) : Option SettingValue :=
  match SettingValue.ofDecimal negative digits exponent with
  | .notFinite name => if negative then some (.notFinite name) else none
  | x => some x

/-- A number in decimal after its sign. -/
def readDecimal (negative : Bool) (text : List Char) : Option (SettingValue × List Char) := do
  let (whole, rest) ← readWhole text
  match rest with
  | '.' :: _ | 'e' :: _ | 'E' :: _ =>
    let (fraction, rest) ← readFraction rest
    let (exponent, rest) ← readExponent rest
    return (← decimal? negative (whole ++ fraction) (exponent - fraction.length), rest)
  | rest => return (← integer? negative (Text.ofDigits whole), rest)

/-- What follows the sign of a number, or stands without one. -/
def readUnsigned (negative : Bool) (text : List Char) : Option (SettingValue × List Char) :=
  match text with
  | 'i' :: 'n' :: 'f' :: rest => some (.notFinite (if negative then "-inf" else "inf"), rest)
  | 'n' :: 'a' :: 'n' :: rest => some (.notFinite "NaN", rest)
  | text => readDecimal negative text

/-- A number. -/
def readNumber (text : List Char) : Option (SettingValue × List Char) :=
  match text with
  | '0' :: 'x' :: rest => readBased 16 rest
  | '0' :: 'o' :: rest => readBased 8 rest
  | '0' :: 'b' :: rest => readBased 2 rest
  | '+' :: rest => readUnsigned false rest
  | '-' :: rest => readUnsigned true rest
  | text => readUnsigned false text

end DocIndex.Toml
