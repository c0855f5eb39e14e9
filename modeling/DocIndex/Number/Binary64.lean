/-!
# Binary64 numbers

The finite doubles, held exactly. A magnitude is numbered by its word: `0` is zero and the words
ascend with the magnitudes, so the order of words is the order of magnitudes and the next double
has the next word. Every magnitude is a whole number of `2^-1074`, its `units`, and all arithmetic
is done on those: a quotient of two natural numbers is rounded to the nearest magnitude, a half to
the even word, and a result beyond the largest finite double is none.
-/

namespace DocIndex

/-- The first word that stands for no finite magnitude. -/
def Binary64.wordLimit : Nat := 2047 * Nat.pow 2 52

/-- A finite double: a sign and the word of its magnitude. -/
structure Binary64 where
  /-- Whether the sign is minus; zero has both signs. -/
  negative : Bool
  /-- The number of the magnitude among all finite magnitudes. -/
  word : Nat
  /-- The magnitude is finite. -/
  word_lt : word < Binary64.wordLimit
  deriving DecidableEq

namespace Binary64

/-- How many doublings separate the word's spacing from the smallest one. -/
def scaleOf (word : Nat) : Nat := word / Nat.pow 2 52 - 1

/-- A word's magnitude as a multiple of `2^-1074`. -/
def unitsOf (word : Nat) : Nat := (word - scaleOf word * Nat.pow 2 52) * Nat.pow 2 (scaleOf word)

/-- The magnitude as a multiple of `2^-1074`. -/
def units (x : Binary64) : Nat := unitsOf x.word

/-- Positive and negative zero. -/
def zero (negative : Bool) : Binary64 := ⟨negative, 0, by decide⟩

/-- Whether the magnitude is zero. -/
def isZero (x : Binary64) : Bool := x.word == 0

/-- Numerical equality, under which the two zeros are equal. -/
def equal (x y : Binary64) : Bool :=
  x.word == y.word && (x.negative == y.negative || x.isZero)

instance : BEq Binary64 := ⟨equal⟩

/-- The other sign. -/
def negate (x : Binary64) : Binary64 := { x with negative := !x.negative }

/-! ### Rounding -/

/-- A quotient to the nearest natural number, a half to the even one. -/
def roundDiv (numerator denominator : Nat) : Nat :=
  let quotient := numerator / denominator
  let rest := 2 * (numerator % denominator)
  if rest < denominator then quotient
  else if denominator < rest then quotient + 1
  else quotient + quotient % 2

/-- The word of the magnitude nearest to a quotient; it may lie beyond the finite words. -/
def nearestWord (numerator denominator : Nat) : Nat :=
  let scaled := numerator * Nat.pow 2 1074
  let scale := Nat.log2 (scaled / denominator) - 52
  scale * Nat.pow 2 52 + roundDiv scaled (denominator * Nat.pow 2 scale)

/-- The double nearest to a signed quotient, if that is finite. -/
def ofQuotient? (negative : Bool) (numerator denominator : Nat) : Option Binary64 :=
  let word := nearestWord numerator denominator
  if h : word < wordLimit then some ⟨negative, word, h⟩ else none

/-- The double nearest to an integer, if that is finite. -/
def ofInt? (n : Int) : Option Binary64 :=
  ofQuotient? (decide (n < 0)) n.natAbs 1

/-- The rounded product, if it is finite. -/
def mul? (x y : Binary64) : Option Binary64 :=
  ofQuotient? (x.negative != y.negative) (x.units * y.units) (Nat.pow 2 2148)

/-- The rounded quotient, if it is finite and the divisor is not zero. -/
def div? (x y : Binary64) : Option Binary64 :=
  if y.isZero then none else ofQuotient? (x.negative != y.negative) x.units y.units

/-! ### Integers -/

/-- The integer part of the magnitude. -/
def truncAbs (x : Binary64) : Nat := x.units / Nat.pow 2 1074

/-- The integer next to the double on the side of zero. -/
def trunc (x : Binary64) : Int :=
  if x.negative then -(x.truncAbs : Int) else x.truncAbs

/-- Whether the magnitude is at most a natural number. -/
def absLe (x : Binary64) (bound : Nat) : Bool := Nat.ble x.units (bound * Nat.pow 2 1074)

end Binary64

end DocIndex
