/-!
# Digits

Decimal digits in a text, and the natural numbers that they spell.
-/

namespace DocIndex.Text

/-- The value of a decimal digit. -/
def digit? (c : Char) : Option Nat :=
  if Nat.ble 48 c.toNat && Nat.ble c.toNat 57 then some (c.toNat - 48) else none

/-- Whether a character is a decimal digit. -/
def isDigit (c : Char) : Bool := (digit? c).isSome

/-- The digits at the front of a text, and what follows them. -/
def takeDigits : List Char → List Nat × List Char
  | [] => ([], [])
  | c :: rest =>
    match digit? c with
    | some d => (d :: (takeDigits rest).1, (takeDigits rest).2)
    | none => ([], c :: rest)

/-- The number that digits spell. -/
def ofDigits (digits : List Nat) : Nat :=
  digits.foldl (fun n d => n * 10 + d) 0

/-- The number that a whole text of one or more digits spells. -/
def natural? (text : List Char) : Option Nat :=
  match takeDigits text with
  | (d :: digits, []) => some (ofDigits (d :: digits))
  | _ => none

/-- The number below a limit that a text spells, with a plus in front of its digits or without. -/
def unsigned? (limit : Nat) (text : List Char) : Option Nat :=
  let digits :=
    match text with
    | '+' :: digits => digits
    | digits => digits
  match natural? digits with
  | some n => if n < limit then some n else none
  | none => none

/-- The decimal digits of a natural number. -/
def ofNat (n : Nat) : List Char := Nat.toDigits 10 n

/-- The decimal digits of an integer, after a minus if it is negative. -/
def ofInt (n : Int) : List Char :=
  if n < 0 then '-' :: ofNat n.natAbs else ofNat n.natAbs

/-- The decimal digits of a number, with zeros in front of them up to a width. -/
def padded (width n : Nat) : List Char :=
  let digits := ofNat n
  List.replicate (width - digits.length) '0' ++ digits

end DocIndex.Text
