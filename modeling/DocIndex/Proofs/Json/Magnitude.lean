import DocIndex.Json.Numeral
import DocIndex.Proofs.Number.Rounding
import Mathlib.Algebra.Order.Field.Power
import Mathlib.Data.Rat.Cast.Order
import Mathlib.Tactic.Positivity
import Mathlib.Tactic.Ring

/-!
# Finite numerals

A double is read with three roundings, of the first digits, of the power of ten and of their product. A
numeral that stays clear of the largest double by as much as these can add has a value
(`Numeral.exists_magnitude?`).
-/

namespace DocIndex

open Text (ofDigits)

namespace Numeral

/-! ### Digits that are taken in -/

theorem mul_pow_length_le_foldl (digits : List Nat) (start : Nat) :
    start * 10 ^ digits.length ≤ digits.foldl (fun n d => n * 10 + d) start := by
  induction digits generalizing start with
  | nil => simp
  | cons d digits ih =>
    calc start * 10 ^ (d :: digits).length = start * 10 * 10 ^ digits.length := by
          rw [List.length_cons, Nat.pow_succ', ← Nat.mul_assoc]
      _ ≤ (start * 10 + d) * 10 ^ digits.length := Nat.mul_le_mul_right _ (Nat.le_add_right _ d)
      _ ≤ digits.foldl (fun n d => n * 10 + d) (start * 10 + d) := ih _

/-- Digits that spell a number of sixty-four bits are all taken in. -/
theorem accumulate_of_lt {digits : List Nat} {start : Nat}
    (h : digits.foldl (fun n d => n * 10 + d) start < Range.unsigned64) :
    accumulate start digits = (digits.foldl (fun n d => n * 10 + d) start, []) := by
  induction digits generalizing start with
  | nil => rfl
  | cons d digits ih =>
    have hle : start * 10 + d ≤ digits.foldl (fun n d => n * 10 + d) (start * 10 + d) :=
      Nat.le_trans (Nat.le_mul_of_pos_right _ (Nat.pow_pos (by decide)))
        (mul_pow_length_le_foldl digits (start * 10 + d))
    rw [List.foldl_cons] at h
    rw [accumulate, if_pos (Nat.lt_of_le_of_lt hle h), ih h, List.foldl_cons]

/-- The digits that are taken in are the first ones, and spell a number of sixty-four bits. -/
theorem accumulate_spec {digits : List Nat} {start : Nat} (h : start < Range.unsigned64) :
    ∃ taken, digits = taken ++ (accumulate start digits).2 ∧
      (accumulate start digits).1 = taken.foldl (fun n d => n * 10 + d) start ∧
      (accumulate start digits).1 < Range.unsigned64 := by
  induction digits generalizing start with
  | nil => exact ⟨[], rfl, rfl, h⟩
  | cons d digits ih =>
    rw [accumulate]
    split
    · rename_i hnext
      obtain ⟨taken, hdigits, hvalue, hlt⟩ := ih hnext
      exact ⟨d :: taken, congrArg (d :: ·) hdigits, hvalue, hlt⟩
    · exact ⟨[], rfl, rfl, h⟩

/-! ### The exact magnitude -/

/-- The exponent that is written. -/
def exponentValue (numeral : Numeral) : ℤ :=
  match numeral.exponent with
  | none => 0
  | some (negative, digits) => if negative then -(ofDigits digits : ℤ) else ofDigits digits

/-- The magnitude that a numeral spells, before any rounding. -/
def toRat (numeral : Numeral) : ℚ :=
  ofDigits (numeral.integer ++ numeral.fraction.getD []) *
    10 ^ (numeral.exponentValue - ((numeral.fraction.getD []).length : ℤ))

/-- What is taken of a numeral does not exceed its magnitude. -/
theorem parts_le {numeral : Numeral} (h : ofDigits numeral.integer < Range.unsigned64) :
    numeral.parts.1 < Range.unsigned64 ∧
      (numeral.parts.1 : ℚ) * 10 ^ (numeral.parts.2 + numeral.exponentValue) ≤ numeral.toRat := by
  have hinteger : accumulate 0 numeral.integer = (ofDigits numeral.integer, []) := accumulate_of_lt h
  unfold toRat parts
  rw [hinteger]
  generalize numeral.exponentValue = exponent
  cases numeral.fraction with
  | none => simpa using h
  | some digits =>
    obtain ⟨taken, hdigits, hvalue, hlt⟩ := @accumulate_spec digits _ h
    dsimp only
    generalize accumulate (ofDigits numeral.integer) digits = read at hdigits hvalue hlt ⊢
    obtain ⟨significand, ignored⟩ := read
    refine ⟨hlt, ?_⟩
    dsimp only at hdigits hvalue ⊢
    have hwhole : significand * 10 ^ ignored.length ≤ ofDigits (numeral.integer ++ digits) := by
      rw [ofDigits, List.foldl_append, hdigits, List.foldl_append, hvalue]
      exact mul_pow_length_le_foldl _ _
    have hlength : digits.length = taken.length + ignored.length := by rw [hdigits, List.length_append]
    have hpower : (10 : ℚ) ^ ((([] : List Nat).length : ℤ) - ((digits.length - ignored.length : Nat) : ℤ) +
        exponent) = 10 ^ ignored.length * 10 ^ (exponent - (digits.length : ℤ)) := by
      rw [← zpow_natCast, ← zpow_add₀ (by norm_num)]
      congr 1
      rw [hlength, List.length_nil]
      omega
    rw [hpower, ← mul_assoc, Option.getD_some]
    exact mul_le_mul_of_nonneg_right (by exact_mod_cast hwhole) (by positivity)

/-! ### Rounded parts -/

section

open Binary64

variable {bits : Nat} (hbits : bits = 1074)

include hbits

theorem unitsOf_nearestWord_natural_le {n : Nat} (hn : 0 < n) :
    2 ^ 53 * unitsOf (nearestWord n 1) ≤ (2 ^ 53 + 1) * (n * 2 ^ bits) := by
  have hlarge : 2 ^ 52 * 1 ≤ n * 2 ^ bits := by
    rw [Nat.mul_comm]
    exact Nat.mul_le_mul hn (Nat.pow_le_pow_right (by decide) (by omega))
  have h := unitsOf_nearestWord_le hbits Nat.one_pos hlarge
  rwa [Nat.mul_one] at h

/-- The powers of ten that are used are doubles from one on, and rounded up a little at most. -/
theorem exists_powerOfTen? {exponent : Nat} (h : exponent ≤ largestPower) :
    ∃ power, powerOfTen? exponent = some power ∧ 2 ^ bits ≤ power.units ∧
      2 ^ 53 * power.units ≤ (2 ^ 53 + 1) * (10 ^ exponent * 2 ^ bits) := by
  have hlargest : 10 ^ largestPower * 2 ^ bits ≤ unitsOf (wordLimit - 1) := by
    rw [hbits]
    decide +kernel
  have hfinite : 10 ^ exponent * 2 ^ bits ≤ unitsOf (wordLimit - 1) * 1 := by
    rw [Nat.mul_one]
    exact Nat.le_trans (Nat.mul_le_mul_right _ (Nat.pow_le_pow_right (by decide) h)) hlargest
  have hpos : 0 < 10 ^ exponent := Nat.pow_pos (by decide)
  obtain ⟨power, hpower, hword⟩ := exists_ofQuotient? hbits Nat.one_pos hfinite false
  refine ⟨power, hpower, ?_, ?_⟩
  · rw [units, hword]
    rcases Nat.lt_or_ge (10 ^ exponent) (2 ^ 53) with hsmall | hlarge
    · rw [unitsOf_nearestWord hbits hsmall]
      exact Nat.le_mul_of_pos_left _ hpos
    · exact Nat.le_trans (Nat.le_mul_of_pos_left _ (by decide)) (le_unitsOf_nearestWord hbits hlarge)
  · rw [units, hword]
    exact unitsOf_nearestWord_natural_le hbits hpos

/-- The first digits are rounded up a little at most. -/
theorem exists_significand {n : Nat} (h : n < Range.unsigned64) :
    ∃ x, ofInt? n = some x ∧ (n = 0 → x.isZero = true) ∧
      2 ^ 53 * x.units ≤ (2 ^ 53 + 1) * (n * 2 ^ bits) := by
  have hlargest : Range.unsigned64 * 2 ^ bits ≤ unitsOf (wordLimit - 1) := by
    rw [hbits]
    decide +kernel
  have hfinite : n * 2 ^ bits ≤ unitsOf (wordLimit - 1) * 1 := by
    rw [Nat.mul_one]
    exact Nat.le_trans (Nat.mul_le_mul_right _ (Nat.le_of_lt h)) hlargest
  obtain ⟨x, hx, hword⟩ := exists_ofQuotient? hbits Nat.one_pos hfinite (decide ((n : ℤ) < 0))
  refine ⟨x, hx, fun hzero => ?_, ?_⟩
  · rw [isZero, hword, hzero, beq_iff_eq]
    exact Nat.le_zero.mp (nearestWord_le hbits Nat.one_pos (by simp))
  · rw [units, hword]
    rcases Nat.eq_zero_or_pos n with rfl | hpos
    · have hzero : nearestWord 0 1 = 0 := Nat.le_zero.mp (nearestWord_le hbits Nat.one_pos (by simp))
      have hunits : unitsOf 0 = 0 := by decide
      rw [hzero, hunits]
      omega
    · exact unitsOf_nearestWord_natural_le hbits hpos

/-! ### Division and multiplication by powers of ten -/

theorem exists_divByTens {exponent : Nat} (h : exponent ≤ largestPower) (x : Binary64) :
    ∃ y, divByTens exponent x = some y := by
  obtain ⟨power, hpower, hunits, -⟩ := exists_powerOfTen? hbits h
  obtain ⟨y, hy⟩ := exists_div? hbits x hunits
  exact ⟨y, by simp only [divByTens, hpower, Option.bind_eq_bind, Option.bind_some, hy]⟩

theorem exists_divByLargest (steps : Nat) (x : Binary64) : ∃ y, divByLargest steps x = some y := by
  induction steps generalizing x with
  | zero => exact ⟨x, rfl⟩
  | succ steps ih =>
    rw [divByLargest]
    split
    · exact ⟨x, rfl⟩
    · obtain ⟨y, hy⟩ := exists_divByTens hbits (Nat.le_refl largestPower) x
      rw [hy, Option.bind_some]
      exact ih y

theorem exists_divBySteps (steps : Nat) {exponent : Nat} (h : exponent ≤ largestPower) (x : Binary64) :
    ∃ y, (divByLargest steps x).bind (divByTens exponent) = some y := by
  obtain ⟨y, hy⟩ := exists_divByLargest hbits steps x
  rw [hy, Option.bind_some]
  exact exists_divByTens hbits h y

theorem exists_divByPower (x : Binary64) (exponent : Nat) : ∃ y, divByPower x exponent = some y := by
  have hrest : exponent - (exponent - 1) / largestPower * largestPower ≤ largestPower := by
    unfold largestPower
    omega
  exact exists_divBySteps hbits _ hrest x

/-- A product that stays clear of the largest double by two roundings is finite. -/
theorem exists_mulByTens {n exponent : Nat} (hexponent : exponent ≤ largestPower) {x : Binary64}
    (hx : 2 ^ 53 * x.units ≤ (2 ^ 53 + 1) * (n * 2 ^ bits))
    (h : n * 10 ^ exponent * 2 ^ bits ≤ unitsOf (wordLimit - 3)) :
    ∃ y, (powerOfTen? exponent).bind x.mul? = some y := by
  obtain ⟨power, hpower, -, hunits⟩ := exists_powerOfTen? hbits hexponent
  rw [hpower, Option.bind_some]
  refine exists_mul? hbits ?_
  have hclear : (2 ^ 53 + 1) * (2 ^ 53 + 1) * unitsOf (wordLimit - 3) ≤
      2 ^ 53 * 2 ^ 53 * unitsOf (wordLimit - 1) := by decide +kernel
  generalize unitsOf (wordLimit - 3) = clear at h hclear
  generalize unitsOf (wordLimit - 1) = largest at hclear ⊢
  refine Nat.le_of_mul_le_mul_left ?_ (by decide : 0 < 2 ^ 53 * 2 ^ 53)
  calc 2 ^ 53 * 2 ^ 53 * (x.units * power.units)
      = 2 ^ 53 * x.units * (2 ^ 53 * power.units) := by ac_rfl
    _ ≤ (2 ^ 53 + 1) * (n * 2 ^ bits) * ((2 ^ 53 + 1) * (10 ^ exponent * 2 ^ bits)) :=
        Nat.mul_le_mul hx hunits
    _ = (2 ^ 53 + 1) * (2 ^ 53 + 1) * (n * 10 ^ exponent * 2 ^ bits) * 2 ^ bits := by ac_rfl
    _ ≤ (2 ^ 53 + 1) * (2 ^ 53 + 1) * clear * 2 ^ bits :=
        Nat.mul_le_mul_right _ (Nat.mul_le_mul_left _ h)
    _ ≤ 2 ^ 53 * 2 ^ 53 * largest * 2 ^ bits := Nat.mul_le_mul_right _ hclear
    _ = 2 ^ 53 * 2 ^ 53 * (largest * 2 ^ bits) := by ac_rfl

theorem exists_mulByPower {n exponent : Nat} {x : Binary64} (hzero : n = 0 → x.isZero = true)
    (hx : 2 ^ 53 * x.units ≤ (2 ^ 53 + 1) * (n * 2 ^ bits))
    (h : n * 10 ^ exponent * 2 ^ bits ≤ unitsOf (wordLimit - 3)) :
    ∃ y, mulByPower x exponent = some y := by
  unfold mulByPower
  split
  · exact exists_mulByTens hbits ‹_› hx h
  · -- the power alone is too large, so there is nothing to multiply
    rename_i hexponent
    have hlarge : unitsOf (wordLimit - 3) < 10 ^ (largestPower + 1) * 2 ^ bits := by
      rw [hbits]
      decide +kernel
    have hn : n = 0 := by
      rcases Nat.eq_zero_or_pos n with hn | hpos
      · exact hn
      · refine absurd (Nat.lt_of_lt_of_le hlarge ?_) (Nat.not_lt.mpr h)
        refine Nat.mul_le_mul_right _ (Nat.le_trans ?_ (Nat.le_mul_of_pos_left _ hpos))
        exact Nat.pow_le_pow_right (by decide) (by omega)
    exact ⟨x, if_pos (hzero hn)⟩

theorem exists_doubleOfParts? {significand : Nat} {exponent : Int}
    (hsignificand : significand < Range.unsigned64)
    (h : (significand : ℚ) * 10 ^ exponent * 2 ^ bits ≤ unitsOf (wordLimit - 3)) :
    ∃ x, doubleOfParts? significand exponent = some x := by
  obtain ⟨x, hx, hzero, hunits⟩ := exists_significand hbits hsignificand
  have hparts : doubleOfParts? significand exponent =
      if 0 ≤ exponent then mulByPower x exponent.toNat else divByPower x exponent.natAbs := by
    rw [doubleOfParts?, hx]
    rfl
  rw [hparts]
  split
  · rename_i hexponent
    obtain ⟨n, rfl⟩ := Int.eq_ofNat_of_zero_le hexponent
    refine exists_mulByPower hbits hzero hunits ?_
    rw [Int.toNat_natCast]
    rw [zpow_natCast] at h
    exact_mod_cast h
  · exact exists_divByPower hbits x exponent.natAbs

/-- A numeral that does not exceed the third largest double has a magnitude, unless its exponent alone is
too large. -/
theorem exists_magnitude? {numeral : Numeral} (hinteger : ofDigits numeral.integer < Range.unsigned64)
    (hexponent : ∀ digits, numeral.exponent = some (false, digits) → ofDigits digits < Range.signed32)
    (h : numeral.toRat * 2 ^ bits ≤ unitsOf (wordLimit - 3)) : ∃ x, numeral.magnitude? = some x := by
  obtain ⟨hlt, hle⟩ := parts_le hinteger
  have hfinite := (mul_le_mul_of_nonneg_right hle (by positivity : (0 : ℚ) ≤ 2 ^ bits)).trans h
  unfold magnitude?
  unfold exponentValue at hfinite
  generalize numeral.parts = parts at hlt hfinite
  obtain ⟨significand, exponent⟩ := parts
  dsimp only at hlt hfinite ⊢
  cases hwritten : numeral.exponent with
  | none =>
    rw [hwritten] at hfinite
    dsimp only at hfinite ⊢
    rw [add_zero] at hfinite
    exact exists_doubleOfParts? hbits hlt hfinite
  | some written =>
    obtain ⟨negative, digits⟩ := written
    rw [hwritten] at hfinite
    dsimp only at hfinite ⊢
    split
    · cases negative with
      | false => exact exists_doubleOfParts? hbits hlt hfinite
      | true => exact exists_doubleOfParts? hbits hlt hfinite
    · cases negative with
      | false => exact absurd (hexponent digits hwritten) ‹_›
      | true => exact ⟨Binary64.zero false, by simp⟩

end

end Numeral

end DocIndex
