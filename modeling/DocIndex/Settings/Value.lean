import DocIndex.Number.Range
import DocIndex.Number.Shortest
import DocIndex.Text.Digit
import DocIndex.Text.Word

/-!
# Setting values

The values that settings are given with, before it is known what kind of value a setting takes. A
variable of the environment is read as a truth value, an integer or a decimal if it is written as
one. Any value converts to a text; numbers, and a few words, convert to truth values.
-/

namespace DocIndex

/-- A given value. -/
inductive SettingValue where
  /-- A text. -/
  | string (text : String)
  /-- A truth value. -/
  | bool (value : Bool)
  /-- An integer of sixty-four bits. -/
  | int (value : Int)
  /-- A double. -/
  | double (value : Binary64)
  /-- A double that is not finite, by its name. -/
  | notFinite (name : String)

namespace SettingValue

/-- The positional text of a double, without a point if it is whole. -/
def plainText (x : Binary64) : List Char :=
  let decimal := x.shortest
  let digits := Text.ofNat decimal.digits
  let magnitude :=
    if 0 ≤ decimal.exponent then digits ++ List.replicate decimal.exponent.toNat '0'
    else
      let places := decimal.exponent.natAbs
      if places < digits.length then
        digits.take (digits.length - places) ++ '.' :: digits.drop (digits.length - places)
      else '0' :: '.' :: (List.replicate (places - digits.length) '0' ++ digits)
  if x.negative then '-' :: magnitude else magnitude

/-- The text that a value converts to. -/
def asText : SettingValue → String
  | string text => text
  | bool true => "true"
  | bool false => "false"
  | int n => String.ofList (Text.ofInt n)
  | double x => String.ofList (plainText x)
  | notFinite name => name

/-- The truth value that a value converts to. -/
def asBool? : SettingValue → Option Bool
  | bool value => some value
  | int n => some (n != 0)
  | double x => some !x.isZero
  | notFinite _ => some true
  | string text =>
    let word := Text.lowercase text
    if word = "1" ∨ word = "true" ∨ word = "on" ∨ word = "yes" then some true
    else if word = "0" ∨ word = "false" ∨ word = "off" ∨ word = "no" then some false
    else none

/-! ### Reading -/

/-- The sign in front of a text, and what follows it. -/
def splitSign : List Char → Bool × List Char
  | '+' :: rest => (false, rest)
  | '-' :: rest => (true, rest)
  | text => (false, text)

/-- The integer of sixty-four bits that a sign and digits spell. -/
def signed? (negative : Bool) (digits : List Char) : Option Int :=
  match Text.natural? digits with
  | none => none
  | some n =>
    if negative then (if n ≤ Range.signed64 then some (-(n : Int)) else none)
    else if n < Range.signed64 then some n
    else none

/-- The integer of sixty-four bits that a text spells. -/
def integer? (text : List Char) : Option Int :=
  let (negative, digits) := splitSign text
  signed? negative digits

/-- The exponent at the end of a decimal: none, or a mark, a sign and digits. -/
def exponent? : List Char → Option Int
  | [] => some 0
  | c :: rest =>
    if c = 'e' ∨ c = 'E' then
      let (negative, digits) := splitSign rest
      (Text.natural? digits).map fun n => if negative then -(n : Int) else n
    else none

/-- A double from a sign, digits and a power of ten; one that is too large is not finite. -/
def ofDecimal (negative : Bool) (digits : List Nat) (exponent : Int) : SettingValue :=
  let magnitude := Text.ofDigits digits
  if magnitude = 0 ∨ exponent + digits.length < -400 then double (Binary64.zero negative)
  else
    let tooLarge := notFinite (if negative then "-inf" else "inf")
    if 400 < exponent then tooLarge
    else
      match Binary64.ofQuotient? negative (magnitude * Nat.pow 10 exponent.toNat)
          (Nat.pow 10 (-exponent).toNat) with
      | some x => double x
      | none => tooLarge

/-- The double that a text spells: digits with a point anywhere among them, or a name. -/
def double? (text : List Char) : Option SettingValue :=
  let (negative, unsigned) := splitSign text
  let name := unsigned.map Text.lower
  if name = ['n', 'a', 'n'] then some (notFinite "NaN")
  else if name = ['i', 'n', 'f'] ∨ name = ['i', 'n', 'f', 'i', 'n', 'i', 't', 'y'] then
    some (notFinite (if negative then "-inf" else "inf"))
  else
    let (whole, rest) := Text.takeDigits unsigned
    let (fraction, rest) :=
      match rest with
      | '.' :: rest => Text.takeDigits rest
      | rest => ([], rest)
    if whole.isEmpty && fraction.isEmpty then none
    else
      (exponent? rest).map fun exponent =>
        ofDecimal negative (whole ++ fraction) (exponent - fraction.length)

/-- The value of a variable's text. -/
def ofVariable (content : String) : SettingValue :=
  let word := Text.lowercase content
  if word = "true" then bool true
  else if word = "false" then bool false
  else
    match integer? content.toList with
    | some n => int n
    | none => (double? content.toList).getD (string content)

end SettingValue

end DocIndex
