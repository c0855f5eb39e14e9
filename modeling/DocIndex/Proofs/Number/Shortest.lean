import DocIndex.Number.Shortest
import DocIndex.Proofs.Number.Rounding
import Mathlib.Algebra.Order.Field.Power
import Mathlib.Data.Rat.Cast.Order
import Mathlib.Tactic.Positivity
import Mathlib.Tactic.Ring

/-!
# The magnitude of a shortest decimal

The decimal in which a double is written has a first digit that is not zero, unless it is zero itself,
and does not exceed the next double (`Binary64.shortest_le`).
-/

namespace DocIndex

/-- The magnitude that a decimal stands for. -/
def Decimal.toRat (x : Decimal) : ℚ := x.digits * 10 ^ x.exponent

/-! ### Zeros at the end -/

namespace Decimal

theorem normalize_induction (Good : Decimal → Prop)
    (hstep : ∀ x : Decimal, x.digits % 10 = 0 → x.digits ≠ 0 → Good x → Good ⟨x.digits / 10, x.exponent + 1⟩)
    (fuel : Nat) {x : Decimal} (h : Good x) : Good (x.normalize fuel) := by
  induction fuel generalizing x with
  | zero => exact h
  | succ fuel ih =>
    rw [normalize]
    split
    · rename_i hzero
      exact ih (hstep x hzero.1 hzero.2 h)
    · exact h

theorem toRat_normalize (fuel : Nat) (x : Decimal) : (x.normalize fuel).toRat = x.toRat := by
  refine normalize_induction (fun y => y.toRat = x.toRat) (fun y hzero _ hy => ?_) fuel rfl
  rw [← hy, toRat, toRat]
  have hdigits : (y.digits : ℚ) = (y.digits / 10 : Nat) * 10 := by
    exact_mod_cast (Nat.div_mul_cancel (Nat.dvd_of_mod_eq_zero hzero)).symm
  rw [hdigits, zpow_add_one₀ (by norm_num), mul_comm ((10 : ℚ) ^ y.exponent), mul_assoc]

theorem digits_normalize_ne_zero (fuel : Nat) {x : Decimal} (h : x.digits ≠ 0) :
    (x.normalize fuel).digits ≠ 0 := by
  refine normalize_induction (fun y => y.digits ≠ 0) (fun y hzero hne _ => ?_) fuel h
  dsimp only
  omega

end Decimal

/-! ### Points of a grid -/

namespace Binary64

/-- A power of ten as a quotient of two natural ones. -/
theorem ten_zpow_mul (exponent : ℤ) :
    (10 : ℚ) ^ exponent * 10 ^ (-exponent).toNat = 10 ^ exponent.toNat := by
  rw [← zpow_natCast, ← zpow_natCast, ← zpow_add₀ (by norm_num)]
  congr 1
  omega

theorem Interval.le_high_of_contains {range : Interval} {x : Nat} (h : range.contains x = true) :
    x ≤ range.high := by
  unfold contains at h
  split at h
  · rw [Bool.and_eq_true, Nat.ble_eq, Nat.ble_eq] at h
    exact h.2
  · rw [Bool.and_eq_true, Nat.blt_eq, Nat.blt_eq] at h
    exact Nat.le_of_lt h.2

/-- A point that is found on a grid is not zero and lies in the interval. -/
theorem Interval.onGrid?_spec {range : Interval} {exponent : Int} {found : Decimal}
    (h : range.onGrid? exponent = some found) : found.digits ≠ 0 ∧ found.exponent = exponent ∧
      (range.scale (Nat.pow 10 (-exponent).toNat)).contains
        (found.digits * (Nat.pow 10 exponent.toNat * Nat.pow 2 1075)) = true := by
  unfold onGrid? at h
  dsimp only at h
  generalize (range.scale (Nat.pow 10 (-exponent).toNat)).value /
    (Nat.pow 10 exponent.toNat * Nat.pow 2 1075) = below at h
  split at h
  · rename_i hbelow habove
    rw [Bool.and_eq_true, bne_iff_ne] at hbelow
    split at h
    · cases h
      exact ⟨hbelow.2, rfl, hbelow.1⟩
    · cases h
      exact ⟨Nat.succ_ne_zero below, rfl, habove⟩
  · rename_i hbelow _
    rw [Bool.and_eq_true, bne_iff_ne] at hbelow
    cases h
    exact ⟨hbelow.2, rfl, hbelow.1⟩
  · rename_i _ habove
    cases h
    exact ⟨Nat.succ_ne_zero below, rfl, habove⟩
  · cases h

/-- A decimal that the search finds does not exceed the upper end of the interval. -/
theorem Interval.search_spec {bits : Nat} (hbits : bits = 1074) {range : Interval} {fuel : Nat}
    {exponent : Int} {found : Decimal} (h : range.search fuel exponent = some found) :
    found.digits ≠ 0 ∧ found.toRat * 2 ^ (bits + 1) ≤ range.high := by
  induction fuel generalizing exponent with
  | zero => cases h
  | succ fuel ih =>
    rw [search] at h
    split at h
    · rename_i hgrid
      cases h
      obtain ⟨hdigits, rfl, hcontains⟩ := onGrid?_spec hgrid
      refine ⟨hdigits, ?_⟩
      have hle := le_high_of_contains hcontains
      have hexponent : 1075 = bits + 1 := by omega
      simp only [scale, Nat.pow_eq, hexponent] at hle
      have hpos : (0 : ℚ) < 10 ^ (-found.exponent).toNat := by positivity
      refine le_of_mul_le_mul_right ?_ hpos
      calc found.toRat * 2 ^ (bits + 1) * 10 ^ (-found.exponent).toNat
          = found.digits * (10 ^ found.exponent.toNat * 2 ^ (bits + 1)) := by
            rw [Decimal.toRat, ← ten_zpow_mul found.exponent]; ring
        _ ≤ range.high * 10 ^ (-found.exponent).toNat := by exact_mod_cast hle
    · exact ih h

theorem shortest_digits (x : Binary64) :
    x.shortest.digits ≠ 0 ∨ x.shortest.digits = 0 ∧ x.shortest.exponent = 0 := by
  unfold shortest
  split
  · exact .inr ⟨rfl, rfl⟩
  · split
    · rename_i hfound
      exact .inl (Decimal.digits_normalize_ne_zero 24 (Interval.search_spec rfl hfound).1)
    · exact .inr ⟨rfl, rfl⟩

/-- A double is written as a decimal that does not exceed the next double. -/
theorem shortest_le {bits : Nat} (hbits : bits = 1074) (x : Binary64) :
    x.shortest.toRat * 2 ^ bits ≤ unitsOf (x.word + 1) := by
  have hzero : (⟨0, 0⟩ : Decimal).toRat * 2 ^ bits ≤ unitsOf (x.word + 1) := by
    rw [Decimal.toRat, Nat.cast_zero, zero_mul, zero_mul]
    exact Nat.cast_nonneg _
  unfold shortest
  split
  · exact hzero
  · split
    · rename_i hfound
      have hhigh := (Interval.search_spec hbits hfound).2
      have hnext : ((interval x.word).high : ℚ) ≤ unitsOf (x.word + 1) * 2 := by
        have hunits := unitsOf_le_unitsOf (Nat.le_add_right x.word 1)
        have hsum : (interval x.word).high = unitsOf x.word + unitsOf (x.word + 1) := rfl
        exact_mod_cast (by omega : (interval x.word).high ≤ unitsOf (x.word + 1) * 2)
      rw [Decimal.toRat_normalize]
      refine le_of_mul_le_mul_right (le_trans ?_ (hhigh.trans hnext)) two_pos
      rw [pow_succ, mul_assoc]
    · exact hzero

end Binary64

end DocIndex
