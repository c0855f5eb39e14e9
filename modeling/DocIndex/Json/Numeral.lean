import DocIndex.Json.Basic
import DocIndex.Number.Range
import DocIndex.Number.Shortest
import DocIndex.Text.Digit

/-!
# Numerals

The text of JSON numbers. `Numeral` is what the grammar of a number finds in a text: a sign,
integer digits, and digits of a fraction and of an exponent if it has them. Its `value?` is an
integer if it is written as one and lies in range, otherwise a double, or none if it is too large
for a double.

A double is read from its first digits, as many as fit sixty-four bits, as a double of their own,
then multiplied or divided by a rounded power of ten; so its last bit is not always the nearest.
It is written with the fewest digits that round to it: positionally from `1e-5` up to below `1e16`,
otherwise with an exponent, which carries its sign in both directions.
-/

namespace DocIndex

open Text (takeDigits ofDigits)

/-- A number in JSON notation. -/
structure Numeral where
  /-- Whether it starts with a minus. -/
  negative : Bool
  /-- The digits before the point. -/
  integer : List Nat
  /-- The digits after the point, if there is one. -/
  fraction : Option (List Nat)
  /-- Whether the exponent is negative, and its digits, if it has one. -/
  exponent : Option (Bool × List Nat)

namespace Numeral

/-! ### Grammar -/

/-- Integer digits: a lone zero, or digits that start with no zero. -/
def readInteger (text : List Char) : Option (List Nat × List Char) :=
  match takeDigits text with
  | ([], _) => none
  | (0 :: _ :: _, _) => none
  | read => some read

/-- A point with at least one digit after it, or nothing. -/
def readFraction : List Char → Option (Option (List Nat) × List Char)
  | '.' :: text =>
    match takeDigits text with
    | ([], _) => none
    | (digits, rest) => some (some digits, rest)
  | text => some (none, text)

/-- The sign of an exponent, if it has one. -/
def readSign : List Char → Bool × List Char
  | '+' :: text => (false, text)
  | '-' :: text => (true, text)
  | text => (false, text)

/-- A mark, a sign if it has one and at least one digit, or nothing. -/
def readExponent (text : List Char) : Option (Option (Bool × List Nat) × List Char) :=
  match text with
  | 'e' :: signed | 'E' :: signed =>
    match takeDigits (readSign signed).2 with
    | ([], _) => none
    | (digits, rest) => some (some ((readSign signed).1, digits), rest)
  | _ => some (none, text)

/-- The numeral at the front of a text without its sign. -/
def readUnsigned (negative : Bool) (text : List Char) : Option (Numeral × List Char) := do
  let (integer, text) ← readInteger text
  let (fraction, text) ← readFraction text
  let (exponent, text) ← readExponent text
  return (⟨negative, integer, fraction, exponent⟩, text)

/-- The numeral at the front of a text. -/
def read : List Char → Option (Numeral × List Char)
  | '-' :: text => readUnsigned true text
  | text => readUnsigned false text

/-! ### Value -/

/-- Appends digits to a number as long as it stays below `2^64`; the digits left over follow. -/
def accumulate : Nat → List Nat → Nat × List Nat
  | n, [] => (n, [])
  | n, d :: digits =>
    if n * 10 + d < Range.unsigned64 then accumulate (n * 10 + d) digits else (n, d :: digits)

/-- The rounded power of ten, for powers up to the largest finite one. -/
def powerOfTen? (exponent : Nat) : Option Binary64 :=
  Binary64.ofQuotient? false (Nat.pow 10 exponent) 1

/-- The greatest power of ten that a double can hold. -/
def largestPower : Nat := 308

/-- The double divided by a power of ten that a double can hold. -/
def divByTens (exponent : Nat) (x : Binary64) : Option Binary64 := do
  x.div? (← powerOfTen? exponent)

/-- Repeated division by the greatest power of ten, which ends early at zero. -/
def divByLargest : Nat → Binary64 → Option Binary64
  | 0, x => some x
  | steps + 1, x =>
    if x.isZero then some x else (divByTens largestPower x).bind (divByLargest steps)

/-- The double divided by any power of ten, by the greatest one as long as the rest is beyond it. -/
def divByPower (x : Binary64) (exponent : Nat) : Option Binary64 :=
  let steps := (exponent - 1) / largestPower
  (divByLargest steps x).bind (divByTens (exponent - steps * largestPower))

/-- The double times a power of ten, if that is finite. -/
def mulByPower (x : Binary64) (exponent : Nat) : Option Binary64 :=
  if exponent ≤ largestPower then do x.mul? (← powerOfTen? exponent)
  else if x.isZero then some x
  else none

/-- A significand of at most sixty-four bits times a power of ten. -/
def doubleOfParts? (significand : Nat) (exponent : Int) : Option Binary64 := do
  let x ← Binary64.ofInt? significand
  if 0 ≤ exponent then mulByPower x exponent.toNat else divByPower x exponent.natAbs

/-- The significand that the digits give and the power of ten that goes with it. -/
def parts (numeral : Numeral) : Nat × Int :=
  let (whole, dropped) := accumulate 0 numeral.integer
  match numeral.fraction with
  | none => (whole, dropped.length)
  | some digits =>
    let (significand, ignored) := accumulate whole digits
    (significand, (dropped.length : Int) - ((digits.length - ignored.length : Nat) : Int))

/-- The magnitude as a double. An exponent of `2^31` or more makes the number too large, or zero
if it is negative or the significand is zero. -/
def magnitude? (numeral : Numeral) : Option Binary64 :=
  let (significand, exponent) := numeral.parts
  match numeral.exponent with
  | none => doubleOfParts? significand exponent
  | some (negative, digits) =>
    let written := ofDigits digits
    if written < Range.signed32 then
      doubleOfParts? significand (if negative then exponent - written else exponent + written)
    else if significand != 0 && !negative then none
    else some (Binary64.zero false)

/-- The integer that a numeral without point and exponent spells, if it is in range; minus zero is
no integer. -/
def integer? (numeral : Numeral) : Option Int :=
  if numeral.fraction.isSome || numeral.exponent.isSome then none
  else
    let n := ofDigits numeral.integer
    if numeral.negative then
      if n != 0 && Nat.ble n Range.signed64 then some (-(n : Int)) else none
    else if n < Range.unsigned64 then some n
    else none

/-- The number that a numeral stands for. -/
def value? (numeral : Numeral) : Option Number :=
  match numeral.integer? with
  | some n => some (.int n)
  | none =>
    numeral.magnitude?.map fun x => .double (if numeral.negative then x.negate else x)

end Numeral

/-! ### Writing -/

namespace Number

/-- Zeros. -/
def zeros (count : Nat) : List Char := List.replicate count '0'

/-- A decimal in positional notation, with at least one digit on both sides of the point. -/
def positional (digits : List Char) (exponent : Int) : List Char :=
  if 0 ≤ exponent then digits ++ zeros exponent.toNat ++ ['.', '0']
  else
    let places := exponent.natAbs
    if places < digits.length then
      digits.take (digits.length - places) ++ ['.'] ++ digits.drop (digits.length - places)
    else ['0', '.'] ++ zeros (places - digits.length) ++ digits

/-- A decimal in scientific notation: one digit, the others after a point, the exponent with its
sign. -/
def scientific (digits : List Char) (exponent : Int) : List Char :=
  let leading :=
    match digits with
    | [] => []
    | [d] => [d]
    | d :: rest => d :: '.' :: rest
  leading ++ ['e'] ++ (if exponent < 0 then [] else ['+']) ++ Text.ofInt exponent

/-- A double's text: positional from `1e-5` up to below `1e16`. -/
def doubleText (x : Binary64) : List Char :=
  let decimal := x.shortest
  let digits := Text.ofNat decimal.digits
  let leading : Int := decimal.exponent + digits.length - 1
  let magnitude :=
    if decide (-5 ≤ leading) && decide (leading < 16) then positional digits decimal.exponent
    else scientific digits leading
  if x.negative then '-' :: magnitude else magnitude

/-- A number's text. -/
def text : Number → List Char
  | int n => Text.ofInt n
  | double x => doubleText x

end Number

end DocIndex
