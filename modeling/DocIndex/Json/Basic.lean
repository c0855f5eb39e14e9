import DocIndex.Dict
import DocIndex.Number.Binary64
import DocIndex.Number.Range

/-!
# JSON values

A JSON value, with the integers and the doubles among the numbers kept apart: `1` and `1.0` are
different values, while `0.0` and `-0.0` are equal. The members of an object are a dictionary, in
ascending order of their keys.
-/

namespace DocIndex

/-- A JSON number. -/
inductive Number where
  /-- An integer of the machine's range, from `-2^63` up to `2^64 - 1`. -/
  | int (value : Int)
  /-- Any other number. -/
  | double (value : Binary64)
  deriving DecidableEq

namespace Number

/-- Equality of numbers: an integer equals no double. -/
def equal : Number → Number → Bool
  | int a, int b => a == b
  | double a, double b => a == b
  | _, _ => false

instance : BEq Number := ⟨equal⟩

/-- The integers that JSON numbers hold exactly. -/
def inIntegerRange (n : Int) : Bool :=
  decide (-(Range.signed64 : Int) ≤ n) && decide (n < Range.unsigned64)

/-- The double nearest to the number. -/
def toDouble? : Number → Option Binary64
  | int n => Binary64.ofInt? n
  | double x => some x

/-- Whether the number is zero. -/
def isZero : Number → Bool
  | int n => n == 0
  | double x => x.isZero

end Number

/-- A JSON value. -/
inductive Json where
  /-- The value `null`. -/
  | null
  /-- A truth value. -/
  | bool (value : Bool)
  /-- A number. -/
  | num (value : Number)
  /-- A string. -/
  | str (text : String)
  /-- An array. -/
  | arr (items : List Json)
  /-- An object. -/
  | obj (members : List (String × Json))
  deriving Inhabited

namespace Json

/-! ### Equality -/

mutual

/-- Equality of JSON values, member by member. -/
def equal : Json → Json → Bool
  | null, null => true
  | bool a, bool b => a == b
  | num a, num b => a == b
  | str a, str b => a == b
  | arr xs, arr ys => equalItems xs ys
  | obj xs, obj ys => equalMembers xs ys
  | _, _ => false
termination_by structural x => x

/-- Equality of arrays. -/
def equalItems : List Json → List Json → Bool
  | [], [] => true
  | x :: xs, y :: ys => equal x y && equalItems xs ys
  | _, _ => false
termination_by structural xs => xs

/-- Equality of objects, which are both in order. -/
def equalMembers : List (String × Json) → List (String × Json) → Bool
  | [], [] => true
  | (k, x) :: xs, (l, y) :: ys => k == l && equal x y && equalMembers xs ys
  | _, _ => false
termination_by structural xs => xs

end

instance : BEq Json := ⟨equal⟩

/-! ### Parts -/

/-- The member of an object; any other value has none. -/
def member? (key : String) : Json → Option Json
  | obj members => Dict.find? key members
  | _ => none

/-- The text of a string. -/
def text? : Json → Option String
  | str text => some text
  | _ => none

/-- Whether the value is `null`. -/
def isNull : Json → Bool
  | null => true
  | _ => false

/-! ### Nesting -/

mutual

/-- The number of arrays and objects around the innermost value. -/
def depth : Json → Nat
  | arr items => depthItems items + 1
  | obj members => depthMembers members + 1
  | _ => 0
termination_by structural x => x

/-- The greatest depth of an array's items. -/
def depthItems : List Json → Nat
  | [] => 0
  | x :: xs => max (depth x) (depthItems xs)
termination_by structural xs => xs

/-- The greatest depth of an object's members. -/
def depthMembers : List (String × Json) → Nat
  | [] => 0
  | (_, x) :: xs => max (depth x) (depthMembers xs)
termination_by structural xs => xs

end

end Json

end DocIndex
