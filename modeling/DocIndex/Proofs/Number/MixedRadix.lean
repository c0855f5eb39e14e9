import Mathlib.Algebra.BigOperators.Group.List.Basic
import Mathlib.Data.List.Forall2

/-!
# Mixed radix

Numbers written with a radix of its own for each digit, the most significant digit first. A number
below the product of the radices is the value of its digits, each of which is below its radix.
-/

namespace DocIndex.MixedRadix

/-- The digits of a number in the given radices, the most significant first. -/
def digits : List Nat → Nat → List Nat
  | [], _ => []
  | _ :: radices, n => n / radices.prod :: digits radices (n % radices.prod)

/-- The number that digits spell in the given radices. -/
def value : List Nat → List Nat → Nat
  | _ :: radices, d :: ds => d * radices.prod + value radices ds
  | _, _ => 0

theorem pos_of_lt_mul {a b n : Nat} (h : n < a * b) : 0 < b := by
  rcases Nat.eq_zero_or_pos b with rfl | hb
  · rw [Nat.mul_zero] at h
    exact absurd h (Nat.not_lt_zero n)
  · exact hb

theorem digits_lt {radices : List Nat} {n : Nat} (h : n < radices.prod) :
    List.Forall₂ (· < ·) (digits radices n) radices := by
  induction radices generalizing n with
  | nil => exact .nil
  | cons radix radices ih =>
    rw [List.prod_cons] at h
    have hpos := pos_of_lt_mul h
    exact .cons ((Nat.div_lt_iff_lt_mul hpos).mpr h) (ih (Nat.mod_lt n hpos))

theorem value_digits {radices : List Nat} {n : Nat} (h : n < radices.prod) :
    value radices (digits radices n) = n := by
  induction radices generalizing n with
  | nil =>
    rw [List.prod_nil] at h
    exact (Nat.lt_one_iff.mp h).symm
  | cons radix radices ih =>
    rw [List.prod_cons] at h
    rw [digits, value, ih (Nat.mod_lt n (pos_of_lt_mul h)), Nat.mul_comm]
    exact Nat.div_add_mod n radices.prod

end DocIndex.MixedRadix
