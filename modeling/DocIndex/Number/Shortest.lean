import DocIndex.Number.Binary64

/-!
# Shortest decimals

The fewest decimal digits that name a double: of all decimals between the two midpoints to the
neighbouring doubles (the midpoints themselves count when the word is even, since a half rounds to
the even word) one with the fewest digits, and of those the one nearest to the double. The search
takes one, two, and so on up to seventeen digits, and at each count looks at the two neighbours of
the double on that decimal grid.
-/

namespace DocIndex

/-- A decimal magnitude `digits · 10^exponent`. -/
structure Decimal where
  /-- The significant digits, read as a number. -/
  digits : Nat
  /-- The power of ten. -/
  exponent : Int
  deriving DecidableEq

namespace Decimal

/-- The same decimal without zeros at the end of its digits. -/
def normalize (fuel : Nat) (x : Decimal) : Decimal :=
  match fuel with
  | 0 => x
  | fuel + 1 =>
    if x.digits % 10 = 0 ∧ x.digits ≠ 0 then normalize fuel ⟨x.digits / 10, x.exponent + 1⟩ else x

end Decimal

namespace Binary64

/-- A nonzero double among decimals: twice its units, the doubled midpoints on both sides, and
whether the midpoints belong to it. -/
structure Interval where
  /-- The sum of the units of the word and of the word before. -/
  low : Nat
  /-- Twice the units of the word. -/
  value : Nat
  /-- The sum of the units of the word and of the word after. -/
  high : Nat
  /-- Whether the two ends round to the double. -/
  closed : Bool

/-- The decimals that round to a nonzero word. -/
def interval (word : Nat) : Interval where
  low := unitsOf (word - 1) + unitsOf word
  value := 2 * unitsOf word
  high := unitsOf word + unitsOf (word + 1)
  closed := word % 2 == 0

/-- Whether a number of the interval's scale lies in it. -/
def Interval.contains (range : Interval) (x : Nat) : Bool :=
  if range.closed then Nat.ble range.low x && Nat.ble x range.high
  else Nat.blt range.low x && Nat.blt x range.high

/-- The interval with all its numbers multiplied. -/
def Interval.scale (range : Interval) (factor : Nat) : Interval :=
  { range with
    low := range.low * factor, value := range.value * factor, high := range.high * factor }

/-- The point of the grid `10^exponent` that lies in the interval and next to its value. -/
def Interval.onGrid? (range : Interval) (exponent : Int) : Option Decimal :=
  let range := range.scale (Nat.pow 10 (-exponent).toNat)
  let step := Nat.pow 10 exponent.toNat * Nat.pow 2 1075
  let below := range.value / step
  let above := below + 1
  let toBelow := range.value - below * step
  let toAbove := above * step - range.value
  match range.contains (below * step) && below != 0, range.contains (above * step) with
  | true, true =>
    if Nat.blt toBelow toAbove || (toBelow == toAbove && below % 2 == 0) then
      some ⟨below, exponent⟩
    else
      some ⟨above, exponent⟩
  | true, false => some ⟨below, exponent⟩
  | false, true => some ⟨above, exponent⟩
  | false, false => none

/-- The first hit on the grids from `exponent` downward. -/
def Interval.search (range : Interval) : Nat → Int → Option Decimal
  | 0, _ => none
  | fuel + 1, exponent =>
    match range.onGrid? exponent with
    | some found => some found
    | none => range.search fuel (exponent - 1)

/-- A power of ten at or above every magnitude of the units. -/
def decimalExponent (units : Nat) : Int :=
  (((Nat.log2 units + 1 : Nat) : Int) - 1074) * 30103 / 100000 + 1

/-- The magnitude in the fewest digits that round to it; zero is `0`. -/
def shortest (x : Binary64) : Decimal :=
  if x.isZero then ⟨0, 0⟩
  else
    match (interval x.word).search 24 (decimalExponent x.units) with
    | some found => found.normalize 24
    | none => ⟨0, 0⟩

end Binary64

end DocIndex
