import DocIndex.Number.Binary64
import Mathlib.Algebra.Group.Nat.Defs
import Mathlib.Tactic.SplitIfs

/-!
# Integers among the doubles

An integer of up to 53 bits is a double (`Binary64.exists_ofInt?`), and the double nearest to a larger one
is not smaller than `2^53` (`Binary64.absLe_of_ofInt?`).
-/

namespace DocIndex

namespace Binary64

/-! ### Words -/

/-- The units of a word whose significand has 53 bits. -/
theorem unitsOf_add {scale significand : Nat} (hleast : 2 ^ 52 ≤ significand) (hmost : significand < 2 ^ 53) :
    unitsOf (scale * 2 ^ 52 + significand) = significand * 2 ^ scale := by
  have hscale : scaleOf (scale * 2 ^ 52 + significand) = scale := by
    unfold scaleOf
    rw [Nat.pow_eq]
    omega
  rw [unitsOf, hscale, Nat.pow_eq, Nat.pow_eq, Nat.add_sub_cancel_left]

/-- A word from some scale on has at least the units with which that scale starts. -/
theorem le_unitsOf {scale word : Nat} (h : (scale + 1) * 2 ^ 52 ≤ word) :
    2 ^ 52 * 2 ^ scale ≤ unitsOf word := by
  unfold unitsOf scaleOf
  rw [Nat.pow_eq, Nat.pow_eq]
  refine Nat.mul_le_mul ?_ (Nat.pow_le_pow_right (by decide) ?_) <;> omega

theorem roundDiv_mul {d : Nat} (h : 0 < d) (n : Nat) : roundDiv (n * d) d = n := by
  unfold roundDiv
  rw [Nat.mul_mod_left, Nat.mul_div_cancel n h]
  exact if_pos h

theorem le_roundDiv {n d m : Nat} (hd : 0 < d) (h : m * d ≤ n) : m ≤ roundDiv n d := by
  have hquotient : m ≤ n / d := (Nat.le_div_iff_mul_le hd).mpr h
  unfold roundDiv
  dsimp only
  split_ifs <;> omega

/-! ### The word nearest to a natural number -/

section

/-! A natural number is a multiple of `2^-bits`. Its scale puts its leading bit at place 52. -/

variable {n bits : Nat} (hn : n ≠ 0) (hbits : 52 ≤ bits)

include hn

theorem log2_mul_two_pow : Nat.log2 (n * 2 ^ bits) = Nat.log2 n + bits := by
  refine (Nat.log2_eq_iff (Nat.mul_ne_zero hn (Nat.ne_of_gt (Nat.two_pow_pos bits)))).mpr ⟨?_, ?_⟩
  · rw [Nat.pow_add]
    exact Nat.mul_le_mul_right _ (Nat.log2_self_le hn)
  · rw [Nat.add_right_comm, Nat.pow_add]
    exact Nat.mul_lt_mul_of_pos_right Nat.lt_log2_self (Nat.two_pow_pos bits)

include hbits

/-- Up to 53 bits nothing is rounded away. -/
theorem roundDiv_scaled (h : n < 2 ^ 53) :
    roundDiv (n * 2 ^ bits) (2 ^ (Nat.log2 n + bits - 52)) = n * 2 ^ (52 - Nat.log2 n) := by
  have hlog : Nat.log2 n < 53 := (Nat.log2_lt hn).mpr h
  have hsplit : n * 2 ^ bits = n * 2 ^ (52 - Nat.log2 n) * 2 ^ (Nat.log2 n + bits - 52) := by
    have hexponent : 52 - Nat.log2 n + (Nat.log2 n + bits - 52) = bits := by omega
    rw [Nat.mul_assoc, ← Nat.pow_add, hexponent]
  rw [hsplit, roundDiv_mul (Nat.two_pow_pos _)]

theorem unitsOf_scaled (h : n < 2 ^ 53) :
    unitsOf ((Nat.log2 n + bits - 52) * 2 ^ 52 +
      roundDiv (n * 2 ^ bits) (2 ^ (Nat.log2 n + bits - 52))) = n * 2 ^ bits := by
  have hlog : Nat.log2 n < 53 := (Nat.log2_lt hn).mpr h
  have hleast : 2 ^ 52 ≤ n * 2 ^ (52 - Nat.log2 n) :=
    calc 2 ^ 52 = 2 ^ (Nat.log2 n + (52 - Nat.log2 n)) := by rw [Nat.add_sub_cancel' (by omega)]
      _ = 2 ^ Nat.log2 n * 2 ^ (52 - Nat.log2 n) := Nat.pow_add 2 _ _
      _ ≤ n * 2 ^ (52 - Nat.log2 n) := Nat.mul_le_mul_right _ (Nat.log2_self_le hn)
  have hmost : n * 2 ^ (52 - Nat.log2 n) < 2 ^ 53 :=
    calc n * 2 ^ (52 - Nat.log2 n) < 2 ^ (Nat.log2 n + 1) * 2 ^ (52 - Nat.log2 n) :=
          Nat.mul_lt_mul_of_pos_right Nat.lt_log2_self (Nat.two_pow_pos _)
      _ = 2 ^ (Nat.log2 n + 1 + (52 - Nat.log2 n)) := (Nat.pow_add 2 _ _).symm
      _ = 2 ^ 53 := by rw [show Nat.log2 n + 1 + (52 - Nat.log2 n) = 53 by omega]
  have hexponent : 52 - Nat.log2 n + (Nat.log2 n + bits - 52) = bits := by omega
  rw [roundDiv_scaled hn hbits h, unitsOf_add hleast hmost, Nat.mul_assoc, ← Nat.pow_add, hexponent]

theorem le_unitsOf_scaled (h : 2 ^ 53 ≤ n) :
    2 ^ 53 * 2 ^ bits ≤ unitsOf ((Nat.log2 n + bits - 52) * 2 ^ 52 +
      roundDiv (n * 2 ^ bits) (2 ^ (Nat.log2 n + bits - 52))) := by
  have hlog : 53 ≤ Nat.log2 n := (Nat.le_log2 hn).mpr h
  have hexponent : 52 + (Nat.log2 n + bits - 52) = Nat.log2 n + bits := by omega
  have hsignificand : 2 ^ 52 ≤ roundDiv (n * 2 ^ bits) (2 ^ (Nat.log2 n + bits - 52)) := by
    refine le_roundDiv (Nat.two_pow_pos _) ?_
    rw [← Nat.pow_add, hexponent, Nat.pow_add]
    exact Nat.mul_le_mul_right _ (Nat.log2_self_le hn)
  calc 2 ^ 53 * 2 ^ bits = 2 ^ (53 + bits) := (Nat.pow_add 2 53 bits).symm
    _ ≤ 2 ^ (52 + (Nat.log2 n + bits - 52)) := Nat.pow_le_pow_right (by decide) (by omega)
    _ = 2 ^ 52 * 2 ^ (Nat.log2 n + bits - 52) := Nat.pow_add 2 52 _
    _ ≤ unitsOf _ := by
        refine le_unitsOf ?_
        rw [Nat.add_mul, Nat.one_mul]
        exact Nat.add_le_add_left hsignificand _

end

section

/-! The exponent of the units stands as a variable, so that no power of it is ever computed. -/

variable {bits : Nat} (hbits : bits = 1074)

include hbits

theorem nearestWord_natural {n : Nat} (hn : n ≠ 0) : nearestWord n 1 =
    (Nat.log2 n + bits - 52) * 2 ^ 52 + roundDiv (n * 2 ^ bits) (2 ^ (Nat.log2 n + bits - 52)) := by
  unfold nearestWord
  rw [← hbits]
  simp only [Nat.pow_eq, Nat.div_one, Nat.one_mul, log2_mul_two_pow hn]

/-- A natural number of up to 53 bits is a double. -/
theorem unitsOf_nearestWord {n : Nat} (h : n < 2 ^ 53) : unitsOf (nearestWord n 1) = n * 2 ^ bits := by
  by_cases hn : n = 0
  · rw [hn, Nat.zero_mul]
    decide +kernel
  · rw [nearestWord_natural hbits hn]
    exact unitsOf_scaled hn (by omega) h

/-- The double nearest to a natural number of more than 53 bits is not smaller than `2^53`. -/
theorem le_unitsOf_nearestWord {n : Nat} (h : 2 ^ 53 ≤ n) :
    2 ^ 53 * 2 ^ bits ≤ unitsOf (nearestWord n 1) := by
  have hn : n ≠ 0 := by omega
  rw [nearestWord_natural hbits hn]
  exact le_unitsOf_scaled hn (by omega) h

theorem absLe_iff {x : Binary64} {bound : Nat} : x.absLe bound = true ↔ x.units ≤ bound * 2 ^ bits := by
  unfold absLe
  rw [← hbits, Nat.ble_eq, Nat.pow_eq]

theorem truncAbs_eq (x : Binary64) : x.truncAbs = x.units / 2 ^ bits := by
  unfold truncAbs
  rw [← hbits, Nat.pow_eq]

end

/-! ### Integers -/

/-- The double nearest to a natural number of up to 53 bits is finite. -/
theorem nearestWord_lt {n : Nat} (h : n < 2 ^ 53) : nearestWord n 1 < wordLimit := by
  obtain ⟨bits, hbits⟩ : ∃ bits, bits = 1074 := ⟨_, rfl⟩
  obtain ⟨scale, hscale⟩ : ∃ scale, scale = 2046 := ⟨_, rfl⟩
  refine Nat.lt_of_not_le fun hword => ?_
  have hfirst : (scale + 1) * 2 ^ 52 ≤ nearestWord n 1 := by
    rw [hscale]
    exact hword
  have hunits : 2 ^ (52 + scale) < 2 ^ (53 + bits) :=
    calc 2 ^ (52 + scale) = 2 ^ 52 * 2 ^ scale := Nat.pow_add 2 52 scale
      _ ≤ unitsOf (nearestWord n 1) := le_unitsOf hfirst
      _ = n * 2 ^ bits := unitsOf_nearestWord hbits h
      _ < 2 ^ 53 * 2 ^ bits := Nat.mul_lt_mul_of_pos_right h (Nat.two_pow_pos bits)
      _ = 2 ^ (53 + bits) := (Nat.pow_add 2 53 bits).symm
  have hexponent := (Nat.pow_lt_pow_iff_right (by decide)).mp hunits
  omega

/-- An integer of up to 53 bits is the integer part of its double, which is as large. -/
theorem exists_ofInt? {n : Int} (h : n.natAbs < 2 ^ 53) : ∃ x, ofInt? n = some x ∧ x.trunc = n ∧
    ∀ bound, x.absLe bound = true ↔ n.natAbs ≤ bound := by
  obtain ⟨bits, hbits⟩ : ∃ bits, bits = 1074 := ⟨_, rfl⟩
  have hunits := unitsOf_nearestWord hbits h
  refine ⟨⟨decide (n < 0), nearestWord n.natAbs 1, nearestWord_lt h⟩, dif_pos (nearestWord_lt h), ?_,
    fun bound => ?_⟩
  · rw [trunc, truncAbs_eq hbits]
    show (if decide (n < 0) = true then -((unitsOf (nearestWord n.natAbs 1) / 2 ^ bits : Nat) : Int)
      else (unitsOf (nearestWord n.natAbs 1) / 2 ^ bits : Nat)) = n
    rw [hunits, Nat.mul_div_cancel _ (Nat.two_pow_pos bits)]
    by_cases hneg : n < 0
    · rw [if_pos (decide_eq_true hneg)]
      omega
    · rw [if_neg (by rwa [decide_eq_true_iff])]
      omega
  · rw [absLe_iff hbits]
    show unitsOf (nearestWord n.natAbs 1) ≤ _ ↔ _
    rw [hunits]
    exact Nat.mul_le_mul_right_iff (Nat.two_pow_pos bits)

/-- The double of a larger integer, if there is one, is not below `2^53`. -/
theorem absLe_of_ofInt? {n : Int} {x : Binary64} (hx : ofInt? n = some x) (h : 2 ^ 53 ≤ n.natAbs)
    {bound : Nat} (hbound : bound < 2 ^ 53) : x.absLe bound = false := by
  obtain ⟨bits, hbits⟩ : ∃ bits, bits = 1074 := ⟨_, rfl⟩
  have hunits := le_unitsOf_nearestWord hbits h
  have hword : x.units = unitsOf (nearestWord n.natAbs 1) := by
    unfold ofInt? ofQuotient? at hx
    dsimp only at hx
    split at hx
    · cases hx
      rfl
    · cases hx
  rw [← Bool.not_eq_true, absLe_iff hbits, hword]
  have hless := Nat.mul_lt_mul_of_pos_right hbound (Nat.two_pow_pos bits)
  omega

end Binary64

end DocIndex
