import DocIndex.Proofs.Number.Binary64

/-!
# Rounding

A quotient is not rounded beyond a double that it does not exceed (`Binary64.nearestWord_le`), and a
quotient that is not subnormal grows by at most one part in `2^53` (`Binary64.unitsOf_nearestWord_le`).
So a product is finite if the exact one stays clear of the largest double by two roundings
(`Binary64.exists_mul?`), and a quotient by a number from one on is always finite (`Binary64.exists_div?`).
-/

namespace DocIndex.Binary64

/-! ### Words and units -/

theorem unitsOf_eq (word : Nat) :
    unitsOf word = (word - scaleOf word * 2 ^ 52) * 2 ^ scaleOf word := by
  rw [unitsOf, Nat.pow_eq, Nat.pow_eq]

theorem scaleOf_eq (word : Nat) : scaleOf word = word / 2 ^ 52 - 1 := by
  rw [scaleOf, Nat.pow_eq]

/-- The units ascend with the words. -/
theorem unitsOf_le_unitsOf {word other : Nat} (h : word ≤ other) : unitsOf word ≤ unitsOf other := by
  have hword := scaleOf_eq word
  have hother := scaleOf_eq other
  rcases Nat.lt_or_ge (scaleOf word) (scaleOf other) with hless | hsame
  · have hsignificand : word - scaleOf word * 2 ^ 52 ≤ 2 ^ 53 := by omega
    calc unitsOf word = (word - scaleOf word * 2 ^ 52) * 2 ^ scaleOf word := unitsOf_eq word
      _ ≤ 2 ^ 53 * 2 ^ scaleOf word := Nat.mul_le_mul_right _ hsignificand
      _ = 2 ^ 52 * 2 ^ (scaleOf word + 1) := by rw [Nat.pow_succ']; omega
      _ ≤ 2 ^ 52 * 2 ^ scaleOf other := Nat.mul_le_mul_left _ (Nat.pow_le_pow_right (by decide) hless)
      _ ≤ unitsOf other := le_unitsOf (by omega)
  · have hscale : scaleOf word = scaleOf other := by omega
    rw [unitsOf_eq, unitsOf_eq, hscale]
    exact Nat.mul_le_mul_right _ (Nat.sub_le_sub_right h _)

/-! ### Division to the nearest natural number -/

theorem roundDiv_le {n d m : Nat} (hd : 0 < d) (h : n ≤ m * d) : roundDiv n d ≤ m := by
  have hquotient : n / d ≤ m := Nat.div_le_of_le_mul (Nat.mul_comm m d ▸ h)
  rcases Nat.lt_or_ge (n / d) m with hless | hmost
  · unfold roundDiv
    dsimp only
    split_ifs <;> omega
  · obtain rfl : n = m * d := by
      refine Nat.le_antisymm h ?_
      exact (Nat.le_div_iff_mul_le hd).mp hmost
    exact Nat.le_of_eq (roundDiv_mul hd m)

/-- Rounding adds at most half of the divisor. -/
theorem two_mul_roundDiv_le {n d : Nat} (hd : 0 < d) : 2 * (roundDiv n d * d) ≤ 2 * n + d := by
  have hsplit : n / d * d + n % d = n := Nat.div_add_mod' n d
  have hrest := Nat.mod_lt n hd
  have hround : roundDiv n d = n / d ∨ roundDiv n d = n / d + 1 ∧ d ≤ 2 * (n % d) := by
    unfold roundDiv
    dsimp only
    split_ifs <;> omega
  rcases hround with hdown | ⟨hup, hhalf⟩
  · rw [hdown]
    omega
  · rw [hup, Nat.add_mul, Nat.one_mul]
    omega

/-! ### The word nearest to a quotient -/

section

/-! As for integers, the exponent of the units stands as a variable. -/

variable {bits : Nat} (hbits : bits = 1074) {n d : Nat} (hd : 0 < d)

include hbits

theorem nearestWord_eq (n d : Nat) : nearestWord n d =
    (Nat.log2 (n * 2 ^ bits / d) - 52) * 2 ^ 52 +
      roundDiv (n * 2 ^ bits) (d * 2 ^ (Nat.log2 (n * 2 ^ bits / d) - 52)) := by
  unfold nearestWord
  rw [← hbits]
  simp only [Nat.pow_eq]

include hd

/-- A quotient is not rounded beyond a word whose units it does not exceed. -/
theorem nearestWord_le {word : Nat} (h : n * 2 ^ bits ≤ unitsOf word * d) : nearestWord n d ≤ word := by
  rw [nearestWord_eq hbits]
  generalize n * 2 ^ bits = scaled at h
  generalize hscale : Nat.log2 (scaled / d) - 52 = scale
  have hword := scaleOf_eq word
  have hunits := unitsOf_eq word
  have hsignificand : word - scaleOf word * 2 ^ 52 < 2 ^ 53 := by omega
  have hquotient : scaled / d ≤ unitsOf word := Nat.div_le_of_le_mul (Nat.mul_comm d _ ▸ h)
  have hstep : 0 < d * 2 ^ scale := Nat.mul_pos hd (Nat.two_pow_pos scale)
  rcases Nat.lt_or_ge scale (scaleOf word) with hless | hmost
  · -- on a finer scale than that of the word every significand is before it
    have hbound : scaled / d < 2 ^ (scale + 53) := by
      refine Nat.lt_of_lt_of_le Nat.lt_log2_self (Nat.pow_le_pow_right (by decide) ?_)
      omega
    have hround : roundDiv scaled (d * 2 ^ scale) ≤ 2 ^ 53 := by
      refine roundDiv_le hstep ?_
      calc scaled ≤ 2 ^ (scale + 53) * d := Nat.le_of_lt ((Nat.div_lt_iff_lt_mul hd).mp hbound)
        _ = 2 ^ 53 * (d * 2 ^ scale) := by rw [Nat.pow_add]; ac_rfl
    omega
  · have hbound : scaled / d < 2 ^ (scaleOf word + 53) := by
      calc scaled / d ≤ (word - scaleOf word * 2 ^ 52) * 2 ^ scaleOf word := hunits ▸ hquotient
        _ < 2 ^ 53 * 2 ^ scaleOf word := Nat.mul_lt_mul_of_pos_right hsignificand (Nat.two_pow_pos _)
        _ = 2 ^ (scaleOf word + 53) := by rw [Nat.pow_add, Nat.mul_comm]
    have hsame : scale = scaleOf word := by
      rcases Nat.eq_zero_or_pos (scaled / d) with hzero | hpos
      · rw [hzero] at hscale
        have hlog : Nat.log2 0 = 0 := by decide
        omega
      · have hlog := (Nat.log2_lt (Nat.ne_of_gt hpos)).mpr hbound
        omega
    have hround : roundDiv scaled (d * 2 ^ scale) ≤ word - scaleOf word * 2 ^ 52 := by
      refine roundDiv_le hstep (Nat.le_trans h (Nat.le_of_eq ?_))
      rw [hunits, hsame]
      ac_rfl
    omega

/-- A quotient that is not subnormal is rounded up by at most one part in `2^53`. -/
theorem unitsOf_nearestWord_le (h : 2 ^ 52 * d ≤ n * 2 ^ bits) :
    2 ^ 53 * (unitsOf (nearestWord n d) * d) ≤ (2 ^ 53 + 1) * (n * 2 ^ bits) := by
  rw [nearestWord_eq hbits]
  generalize n * 2 ^ bits = scaled at h ⊢
  have hquotient : 2 ^ 52 ≤ scaled / d := (Nat.le_div_iff_mul_le hd).mpr h
  have hne : scaled / d ≠ 0 := by omega
  have hlog : 52 ≤ Nat.log2 (scaled / d) := (Nat.le_log2 hne).mpr hquotient
  obtain ⟨scale, hscale⟩ := Nat.exists_eq_add_of_le hlog
  have hsub : 52 + scale - 52 = scale := by omega
  rw [hscale, hsub]
  have hstep : 0 < d * 2 ^ scale := Nat.mul_pos hd (Nat.two_pow_pos scale)
  have hlow : 2 ^ 52 * (d * 2 ^ scale) ≤ scaled := by
    have hpower := Nat.log2_self_le hne
    rw [hscale] at hpower
    calc 2 ^ 52 * (d * 2 ^ scale) = 2 ^ (52 + scale) * d := by rw [Nat.pow_add]; ac_rfl
      _ ≤ scaled := (Nat.le_div_iff_mul_le hd).mp hpower
  have hhigh : scaled ≤ 2 ^ 53 * (d * 2 ^ scale) := by
    have hpower : scaled / d < 2 ^ (52 + scale + 1) := hscale ▸ Nat.lt_log2_self
    calc scaled ≤ 2 ^ (52 + scale + 1) * d := Nat.le_of_lt ((Nat.div_lt_iff_lt_mul hd).mp hpower)
      _ = 2 ^ 53 * (d * 2 ^ scale) := by rw [Nat.add_right_comm, Nat.pow_add]; ac_rfl
  have hleast : 2 ^ 52 ≤ roundDiv scaled (d * 2 ^ scale) := le_roundDiv hstep hlow
  have hmost : roundDiv scaled (d * 2 ^ scale) ≤ 2 ^ 53 := roundDiv_le hstep hhigh
  have hround := two_mul_roundDiv_le (n := scaled) hstep
  generalize roundDiv scaled (d * 2 ^ scale) = significand at hleast hmost hround
  have hunits : unitsOf (scale * 2 ^ 52 + significand) = significand * 2 ^ scale := by
    rcases Nat.lt_or_ge significand (2 ^ 53) with hless | hcarry
    · exact unitsOf_add hleast hless
    · -- the carry goes to the next scale
      obtain rfl : significand = 2 ^ 53 := Nat.le_antisymm hmost hcarry
      have hword : scale * 2 ^ 52 + 2 ^ 53 = (scale + 1) * 2 ^ 52 + 2 ^ 52 := by omega
      rw [hword, unitsOf_add (Nat.le_refl _) (by decide), Nat.pow_succ']
      omega
  have hproduct : unitsOf (scale * 2 ^ 52 + significand) * d = significand * (d * 2 ^ scale) := by
    rw [hunits]
    ac_rfl
  rw [hproduct, Nat.add_mul, Nat.one_mul]
  omega

end

/-! ### Finite results -/

theorem units_le (x : Binary64) : x.units ≤ unitsOf (wordLimit - 1) :=
  unitsOf_le_unitsOf (Nat.le_sub_one_of_lt x.word_lt)

section

variable {bits : Nat} (hbits : bits = 1074)

include hbits

/-- A quotient that does not exceed the largest double is rounded to a double. -/
theorem exists_ofQuotient? {n d : Nat} (hd : 0 < d) (h : n * 2 ^ bits ≤ unitsOf (wordLimit - 1) * d)
    (negative : Bool) : ∃ x, ofQuotient? negative n d = some x ∧ x.word = nearestWord n d := by
  have hlimit : 0 < wordLimit := by decide
  have hword := nearestWord_le hbits hd h
  have hlt : nearestWord n d < wordLimit := by omega
  exact ⟨⟨negative, nearestWord n d, hlt⟩, dif_pos hlt, rfl⟩

/-- The quotient by a number from one on is finite. -/
theorem exists_div? (x : Binary64) {y : Binary64} (hy : 2 ^ bits ≤ y.units) : ∃ z, x.div? y = some z := by
  have hpos : 0 < y.units := Nat.lt_of_lt_of_le (Nat.two_pow_pos bits) hy
  have hzero : y.isZero = false := by
    rw [isZero, beq_eq_false_iff_ne]
    intro hword
    rw [units, hword] at hpos
    exact absurd hpos (by decide)
  obtain ⟨z, hz, -⟩ := exists_ofQuotient? hbits hpos (Nat.mul_le_mul x.units_le hy)
    (x.negative != y.negative)
  refine ⟨z, ?_⟩
  rw [div?, hzero, if_neg Bool.false_ne_true, hz]

/-- A product is finite if the exact one does not exceed the largest double. -/
theorem exists_mul? {x y : Binary64} (h : x.units * y.units ≤ unitsOf (wordLimit - 1) * 2 ^ bits) :
    ∃ z, x.mul? y = some z := by
  have hdouble : Nat.pow 2 2148 = 2 ^ bits * 2 ^ bits := by
    have hexponent : 2148 = bits + bits := by omega
    rw [hexponent, Nat.pow_eq, Nat.pow_add]
  obtain ⟨z, hz, -⟩ := @exists_ofQuotient? bits hbits (x.units * y.units) (2 ^ bits * 2 ^ bits)
    (Nat.mul_pos (Nat.two_pow_pos bits) (Nat.two_pow_pos bits))
    (Nat.mul_assoc _ _ (2 ^ bits) ▸ Nat.mul_le_mul_right _ h) (x.negative != y.negative)
  refine ⟨z, ?_⟩
  rw [mul?, hdouble, hz]

end

end DocIndex.Binary64
