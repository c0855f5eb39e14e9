import DocIndex.Proofs.Json.Magnitude
import DocIndex.Proofs.Json.Numeral
import DocIndex.Proofs.Number.Shortest

/-!
# Written doubles, read again

Every double is read from its text as some double (`Number.exists_double_of_text`), though not always as
the same one: the text is that of a numeral with the magnitude of the shortest decimal, which is small
enough for the reader unless it belongs to one of the three largest doubles, and these are read as well.
-/

namespace DocIndex

open Text (ofDigits takeDigits digit?)

/-! ### Texts of numerals -/

namespace Numeral

/-- A point and the digits after it, if there are any. -/
def fractionText : Option (List Char) → List Char
  | none => []
  | some digits => '.' :: digits

/-- A mark and an exponent with its sign, if there is one. -/
def exponentText : Option Int → List Char
  | none => []
  | some exponent => 'e' :: ((if exponent < 0 then [] else ['+']) ++ Text.ofInt exponent)

/-- The digits of a text as numbers. -/
def digitsOf (text : List Char) : List Nat := text.map fun c => c.toNat - 48

variable {integer : List Char} {fraction : Option (List Char)} {exponent : Option Int}

theorem readExponent_exponentText : readExponent (exponentText exponent) =
    some (exponent.map fun e => (decide (e < 0), digitsOf (Text.ofNat e.natAbs)), []) := by
  cases exponent with
  | none => rfl
  | some e =>
    have htake := @Text.takeDigits_ofNat e.natAbs [] (by simp)
    rw [List.append_nil] at htake
    refine (readExponent_of_mark (.inl rfl)).mpr ⟨digitsOf (Text.ofNat e.natAbs), ?_, ?_, ?_⟩
    · rw [Text.ofInt]
      split
      · exact htake
      · exact htake
    · exact fun h => Text.ofNat_ne_nil _ (List.map_eq_nil_iff.mp h)
    · rw [Text.ofInt]
      split <;> simp_all [readSign]

theorem readFraction_fractionText
    (hfraction : ∀ digits ∈ fraction, digits ≠ [] ∧ ∀ c ∈ digits, c.isDigit = true) :
    readFraction (fractionText fraction ++ exponentText exponent) =
      some (fraction.map digitsOf, exponentText exponent) := by
  cases fraction with
  | none => cases exponent <;> rfl
  | some digits =>
    obtain ⟨hne, hdigits⟩ := hfraction digits rfl
    have htake := @Text.takeDigits_append digits (exponentText exponent) hdigits (by
      cases exponent <;> simp [exponentText, digit?])
    obtain ⟨c, digits, rfl⟩ := List.exists_cons_of_ne_nil hne
    rw [fractionText, List.cons_append, readFraction, htake]
    rfl

/-- Integer digits, a fraction and an exponent are read as they are written. -/
theorem readUnsigned_text (hinteger : ∀ c ∈ integer, c.isDigit = true) (hne : integer ≠ [])
    (hzero : ∀ c rest, integer ≠ '0' :: c :: rest)
    (hfraction : ∀ digits ∈ fraction, digits ≠ [] ∧ ∀ c ∈ digits, c.isDigit = true) (negative : Bool) :
    readUnsigned negative (integer ++ (fractionText fraction ++ exponentText exponent)) =
      some (⟨negative, digitsOf integer, fraction.map digitsOf,
        exponent.map fun e => (decide (e < 0), digitsOf (Text.ofNat e.natAbs))⟩, []) := by
  have htake := @Text.takeDigits_append integer (fractionText fraction ++ exponentText exponent) hinteger (by
    cases fraction <;> cases exponent <;> simp [fractionText, exponentText, digit?])
  refine readUnsigned_eq_some_iff.mpr ⟨_, _, readInteger_eq_some_iff.mpr ⟨htake, ?_, ?_⟩,
    readFraction_fractionText hfraction, readExponent_exponentText, rfl⟩
  · exact fun h => hne (List.map_eq_nil_iff.mp h)
  · intro d others h
    obtain ⟨zero, tail, rfl, hd, htail⟩ := List.map_eq_cons_iff.mp h
    obtain ⟨c, rest, rfl, -, -⟩ := List.map_eq_cons_iff.mp htail
    have hdigit : 48 ≤ zero.toNat ∧ zero.toNat ≤ 57 :=
      Char.isDigit_iff_toNat.mp (hinteger zero List.mem_cons_self)
    obtain rfl : zero = '0' := Char.toNat_inj.mp (show zero.toNat = 48 by omega)
    exact hzero c rest rfl

/-- A text that is read as a numeral of a magnitude, with a point or an exponent, whose first digits and
exponent are not too large. -/
structure Spells (text : List Char) (magnitude : ℚ) (numeral : Numeral) : Prop where
  /-- It is read as the numeral, whatever the sign. -/
  read_eq : ∀ negative, readUnsigned negative text = some ({ numeral with negative := negative }, [])
  /-- The magnitude is that of the numeral. -/
  toRat_eq : numeral.toRat = magnitude
  /-- It is no integer. -/
  not_integer : (numeral.fraction.isSome || numeral.exponent.isSome) = true
  /-- The digits before the point fit sixty-four bits. -/
  integer_lt : ofDigits numeral.integer < Range.unsigned64
  /-- The exponent fits thirty-two bits. -/
  exponent_lt : ∀ digits, numeral.exponent = some (false, digits) → ofDigits digits < Range.signed32

theorem digitsOf_append (text more : List Char) : digitsOf (text ++ more) = digitsOf text ++ digitsOf more :=
  List.map_append

theorem ofDigits_digitsOf_zeros (text : List Char) (count : Nat) :
    ofDigits (digitsOf (text ++ Number.zeros count)) = ofDigits (digitsOf text) * 10 ^ count := by
  induction count with
  | zero => simp [Number.zeros]
  | succ count ih =>
    have hzeros : Number.zeros (count + 1) = Number.zeros count ++ ['0'] := List.replicate_succ'
    rw [hzeros, ← List.append_assoc, digitsOf_append, ofDigits, List.foldl_append, ← ofDigits, ih,
      Nat.pow_succ, ← Nat.mul_assoc]
    rfl

theorem ofDigits_zeros_digitsOf (count : Nat) (text : List Char) :
    ofDigits (digitsOf (Number.zeros count ++ text)) = ofDigits (digitsOf text) := by
  have hzeros : ofDigits (digitsOf (Number.zeros count)) = 0 := by
    have h := ofDigits_digitsOf_zeros [] count
    rwa [show ofDigits (digitsOf []) = 0 from rfl, Nat.zero_mul] at h
  rw [digitsOf_append, ofDigits, List.foldl_append, ← ofDigits, hzeros, ofDigits]

theorem isDigit_of_mem_zeros {count : Nat} {c : Char} (h : c ∈ Number.zeros count) : c.isDigit = true := by
  rw [List.eq_of_mem_replicate h]
  rfl

end Numeral

/-! ### The two notations -/

namespace Number

open Numeral

variable {n : Nat}

/-- Digits before the point, without a zero in front, and digits after it. -/
theorem spells_of_fraction {integer fraction : List Char} (hinteger : ∀ c ∈ integer, c.isDigit = true)
    (hne : integer ≠ []) (hzero : ∀ c rest, integer ≠ '0' :: c :: rest) (hfraction : fraction ≠ [])
    (hdigits : ∀ c ∈ fraction, c.isDigit = true) (hlength : integer.length ≤ 16) :
    ∃ numeral, Spells (integer ++ '.' :: fraction)
      (ofDigits (digitsOf (integer ++ fraction)) * 10 ^ (-(fraction.length : ℤ))) numeral := by
  refine ⟨⟨false, digitsOf integer, some (digitsOf fraction), none⟩, fun negative => ?_, ?_, rfl, ?_, ?_⟩
  · have h := @readUnsigned_text integer (some fraction) none hinteger hne hzero
      (fun _ h => Option.some.inj h ▸ ⟨hfraction, hdigits⟩) negative
    rwa [fractionText, exponentText, List.append_nil] at h
  · rw [toRat, exponentValue, digitsOf_append]
    simp [digitsOf]
  · refine Nat.lt_of_lt_of_le (Text.ofDigits_lt hinteger) ?_
    exact Nat.le_trans (Nat.pow_le_pow_right (by decide) hlength) (by decide)
  · rintro _ ⟨⟩

theorem exists_spells_positional {exponent : Int} (hzero : n ≠ 0 ∨ n = 0 ∧ exponent = 0)
    (hleading : exponent + (Text.ofNat n).length - 1 < 16) :
    ∃ numeral, Spells (positional (Text.ofNat n) exponent) (n * 10 ^ exponent) numeral := by
  have hdigits : ∀ c ∈ Text.ofNat n, c.isDigit = true := fun c => Text.isDigit_of_mem_ofNat
  have hvalue : ofDigits (digitsOf (Text.ofNat n)) = n := Text.ofDigits_ofNat n
  unfold positional
  split
  · rename_i hexponent
    obtain ⟨count, rfl⟩ := Int.eq_ofNat_of_zero_le hexponent
    rw [Int.toNat_natCast, List.append_assoc]
    have hfirst : ∀ c rest, Text.ofNat n ++ zeros count ≠ '0' :: c :: rest := by
      rcases hzero with hn | ⟨rfl, hcount⟩
      · have htake : takeDigits (zeros count) = (digitsOf (zeros count), []) := by
          have h := @Text.takeDigits_append (zeros count) [] (fun _ => isDigit_of_mem_zeros) (by simp)
          rwa [List.append_nil] at h
        rw [← Text.ofNat_foldl htake (Nat.pos_of_ne_zero hn)]
        exact Text.ofNat_ne_zero_cons _
      · obtain rfl : count = 0 := by exact_mod_cast hcount
        exact Text.ofNat_ne_zero_cons 0
    obtain ⟨numeral, h⟩ := @spells_of_fraction (Text.ofNat n ++ zeros count) ['0']
      (fun c hmem => (List.mem_append.mp hmem).elim (hdigits c) isDigit_of_mem_zeros)
      (fun h => Text.ofNat_ne_nil n (List.append_eq_nil_iff.mp h).1) hfirst (by simp) (by simp)
      (by rw [List.length_append, zeros, List.length_replicate]; omega)
    refine ⟨numeral, ?_⟩
    have hmagnitude : ofDigits (digitsOf (Text.ofNat n ++ zeros count ++ ['0'])) = n * 10 ^ count * 10 := by
      rw [show ['0'] = zeros 1 from rfl, ofDigits_digitsOf_zeros, ofDigits_digitsOf_zeros, hvalue, Nat.pow_one]
    rw [hmagnitude, List.append_assoc] at h
    have hrat : (((n * 10 ^ count * 10 : Nat) : ℚ) * 10 ^ (-((['0'].length : Nat) : ℤ))) =
        n * 10 ^ (count : ℤ) := by
      simp
    rwa [hrat] at h
  · rename_i hexponent
    obtain ⟨places, rfl⟩ : ∃ places : Nat, exponent = -(places : ℤ) := ⟨exponent.natAbs, by omega⟩
    rw [Int.natAbs_neg, Int.natAbs_natCast]
    dsimp only
    split
    · rename_i hplaces
      have hsplit := List.take_append_drop ((Text.ofNat n).length - places) (Text.ofNat n)
      have hlength : (List.drop ((Text.ofNat n).length - places) (Text.ofNat n)).length = places := by
        rw [List.length_drop]
        omega
      have h := @spells_of_fraction (List.take ((Text.ofNat n).length - places) (Text.ofNat n))
        (List.drop ((Text.ofNat n).length - places) (Text.ofNat n))
        (fun c hmem => hdigits c (List.mem_of_mem_take hmem))
        (by
          rw [← List.length_pos_iff, List.length_take]
          omega)
        (fun c rest h => Text.ofNat_ne_zero_cons n c _ (by rw [← hsplit, h]; rfl))
        (by
          rw [← List.length_pos_iff]
          omega)
        (fun c hmem => hdigits c (List.mem_of_mem_drop hmem))
        (by
          rw [List.length_take]
          omega)
      rwa [hsplit, hvalue, hlength, ← List.singleton_append, ← List.append_assoc] at h
    · rename_i hplaces
      have h := @spells_of_fraction ['0'] (zeros (places - (Text.ofNat n).length) ++ Text.ofNat n)
        (by simp) (by simp) (by simp) (fun h => Text.ofNat_ne_nil n (List.append_eq_nil_iff.mp h).2)
        (fun c hmem => (List.mem_append.mp hmem).elim isDigit_of_mem_zeros (hdigits c)) (by simp)
      have hlength : (zeros (places - (Text.ofNat n).length) ++ Text.ofNat n).length = places := by
        rw [List.length_append, zeros, List.length_replicate]
        omega
      have hmagnitude : ofDigits (digitsOf (['0'] ++ (zeros (places - (Text.ofNat n).length) ++ Text.ofNat n))) =
          n := by
        rw [show ['0'] = zeros 1 from rfl, ofDigits_zeros_digitsOf, ofDigits_zeros_digitsOf, hvalue]
      rwa [hmagnitude, hlength] at h

theorem exists_spells_scientific {leading : Int} (hleading : leading < Range.signed32) :
    ∃ numeral, Spells (scientific (Text.ofNat n) leading)
      (n * 10 ^ (leading - (((Text.ofNat n).length : ℤ) - 1))) numeral := by
  have hvalue : ofDigits (digitsOf (Text.ofNat n)) = n := Text.ofDigits_ofNat n
  obtain ⟨c, rest, hcons, hc⟩ := Text.ofNat_eq_cons n
  have hdigits : ∀ d ∈ c :: rest, d.isDigit = true := fun d hmem =>
    Text.isDigit_of_mem_ofNat (n := n) (hcons ▸ hmem)
  obtain ⟨fraction, htext, hfraction, hrest⟩ : ∃ fraction : Option (List Char),
      scientific (c :: rest) leading = [c] ++ (fractionText fraction ++ exponentText (some leading)) ∧
      (∀ digits ∈ fraction, digits ≠ [] ∧ ∀ d ∈ digits, d.isDigit = true) ∧
      (fraction.map digitsOf).getD [] = digitsOf rest := by
    cases rest with
    | nil => exact ⟨none, by simp [scientific, fractionText, exponentText], by simp, rfl⟩
    | cons d rest =>
      refine ⟨some (d :: rest), by simp [scientific, fractionText, exponentText], ?_, rfl⟩
      rintro _ ⟨⟩
      exact ⟨List.cons_ne_nil _ _, fun e hmem => hdigits e (List.mem_cons_of_mem c hmem)⟩
  refine ⟨⟨false, digitsOf [c], fraction.map digitsOf,
    some (decide (leading < 0), digitsOf (Text.ofNat leading.natAbs))⟩, fun negative => ?_, ?_, ?_, ?_, ?_⟩
  · rw [hcons, htext]
    exact readUnsigned_text (fun d hmem => hdigits d (List.mem_singleton.mp hmem ▸ List.mem_cons_self))
      (List.cons_ne_nil _ _) (by simp) hfraction negative
  · have hexponent : ofDigits (digitsOf (Text.ofNat leading.natAbs)) = leading.natAbs :=
      Text.ofDigits_ofNat _
    have hwritten : (if decide (leading < 0) = true then -(leading.natAbs : ℤ) else leading.natAbs) = leading := by
      split
      · rename_i hneg
        rw [decide_eq_true_iff] at hneg
        omega
      · rename_i hneg
        rw [decide_eq_true_iff] at hneg
        omega
    rw [toRat, exponentValue]
    simp only [hrest, hexponent, hwritten]
    rw [← digitsOf_append, List.singleton_append, ← hcons, hvalue, hcons, List.length_cons]
    congr 2
    simp [digitsOf]
  · simp
  · exact Nat.lt_of_lt_of_le (@Text.ofDigits_lt [c] fun d hmem =>
      hdigits d (List.mem_singleton.mp hmem ▸ List.mem_cons_self)) (by simp [Range.unsigned64])
  · rintro digits h
    obtain ⟨hneg, rfl⟩ := Prod.mk.inj (Option.some.inj h)
    rw [decide_eq_false_iff_not] at hneg
    have hexponent : ofDigits (digitsOf (Text.ofNat leading.natAbs)) = leading.natAbs :=
      Text.ofDigits_ofNat _
    rw [hexponent]
    omega

/-! ### Doubles -/

theorem pow_length_le_of_ne_zero (h : n ≠ 0) : 10 ^ ((Text.ofNat n).length - 1) ≤ n := by
  rcases Nat.eq_zero_or_pos ((Text.ofNat n).length - 1) with hone | hpos
  · rw [hone]
    exact Nat.pos_of_ne_zero h
  · refine Nat.not_lt.mp fun hlt => ?_
    have hlength := (Nat.length_toDigits_le_iff (by decide : 1 < 10) hpos).mpr hlt
    rw [Text.ofNat] at hpos hlength
    omega

section

open Binary64

variable {bits : Nat} (hbits : bits = 1074) {x : Binary64}
  (hx : x.shortest.toRat * 2 ^ bits ≤ unitsOf (wordLimit - 3))

include hbits hx

/-- The first digit of a double stands for a power of ten that a double can hold. -/
theorem leading_le (h : x.shortest.digits ≠ 0) :
    x.shortest.exponent + (Text.ofNat x.shortest.digits).length - 1 ≤ largestPower := by
  have hlarge : unitsOf (wordLimit - 3) < 10 ^ (largestPower + 1) * 2 ^ bits := by
    rw [hbits]
    decide +kernel
  generalize unitsOf (wordLimit - 3) = clear at hx hlarge
  have hpos : 0 < (Text.ofNat x.shortest.digits).length := List.length_pos_iff.mpr (Text.ofNat_ne_nil _)
  have hfirst : (10 : ℚ) ^ (x.shortest.exponent + (Text.ofNat x.shortest.digits).length - 1) ≤
      x.shortest.toRat := by
    have hpower : (10 : ℚ) ^ (x.shortest.exponent + (Text.ofNat x.shortest.digits).length - 1) =
        10 ^ ((Text.ofNat x.shortest.digits).length - 1) * 10 ^ x.shortest.exponent := by
      rw [← zpow_natCast, ← zpow_add₀ (by norm_num)]
      congr 1
      omega
    rw [hpower, Decimal.toRat]
    exact mul_le_mul_of_nonneg_right (by exact_mod_cast pow_length_le_of_ne_zero h) (by positivity)
  have hbound : (10 : ℚ) ^ (x.shortest.exponent + (Text.ofNat x.shortest.digits).length - 1) <
      10 ^ ((largestPower + 1 : Nat) : ℤ) := by
    rw [zpow_natCast]
    refine lt_of_mul_lt_mul_right (lt_of_le_of_lt ?_ (?_ : (clear : ℚ) < _))
      (by positivity : (0 : ℚ) ≤ 2 ^ bits)
    · exact (mul_le_mul_of_nonneg_right hfirst (by positivity)).trans hx
    · exact_mod_cast hlarge
  have hexponent := (zpow_lt_zpow_iff_right₀ (by norm_num : (1 : ℚ) < 10)).mp hbound
  omega

/-- A double is written, after its sign, in one of the two notations. -/
theorem exists_spells_shortest : ∃ text numeral,
    doubleText x = (if x.negative then '-' :: text else text) ∧ Spells text x.shortest.toRat numeral := by
  by_cases hleading : (decide (-5 ≤ x.shortest.exponent + (Text.ofNat x.shortest.digits).length - 1) &&
      decide (x.shortest.exponent + (Text.ofNat x.shortest.digits).length - 1 < 16)) = true
  · rw [Bool.and_eq_true, decide_eq_true_iff, decide_eq_true_iff] at hleading
    obtain ⟨numeral, h⟩ := exists_spells_positional x.shortest_digits hleading.2
    refine ⟨_, numeral, ?_, h⟩
    simp only [doubleText, hleading, decide_true, Bool.and_true, if_true]
  · have hlimit : x.shortest.exponent + (Text.ofNat x.shortest.digits).length - 1 < Range.signed32 := by
      rcases x.shortest_digits with hdigits | ⟨hdigits, hexponent⟩
      · refine Int.lt_of_le_of_lt (leading_le hbits hx hdigits) (by decide)
      · rw [hdigits, hexponent]
        decide
    obtain ⟨numeral, h⟩ := exists_spells_scientific (n := x.shortest.digits) hlimit
    refine ⟨scientific (Text.ofNat x.shortest.digits)
      (x.shortest.exponent + (Text.ofNat x.shortest.digits).length - 1), numeral, ?_, ?_⟩
    · simp only [doubleText, if_neg hleading]
    · have hexponent : x.shortest.exponent + (Text.ofNat x.shortest.digits).length - 1 -
          (((Text.ofNat x.shortest.digits).length : ℤ) - 1) = x.shortest.exponent := by omega
      rwa [hexponent] at h

theorem exists_double_of_le : ∃ numeral y, Numeral.read (doubleText x) = some (numeral, []) ∧
    numeral.value? = some (.double y) := by
  obtain ⟨text, numeral, htext, hspells⟩ := exists_spells_shortest hbits hx
  have hread : Numeral.read (doubleText x) = some ({ numeral with negative := x.negative }, []) := by
    rw [htext]
    cases x.negative with
    | true => exact hspells.read_eq true
    | false =>
      have hminus : text.head? ≠ some '-' := by
        cases text with
        | nil => simp
        | cons c text =>
          rintro ⟨⟩
          cases hspells.read_eq false
      exact (read_of_ne_minus hminus).trans (hspells.read_eq false)
  obtain ⟨y, hy⟩ := @exists_magnitude? bits hbits { numeral with negative := x.negative }
    hspells.integer_lt hspells.exponent_lt (le_of_eq_of_le (congrArg (· * _) hspells.toRat_eq) hx)
  have hinteger : ({ numeral with negative := x.negative } : Numeral).integer? = none :=
    if_pos hspells.not_integer
  refine ⟨_, if x.negative then y.negate else y, hread, ?_⟩
  simp only [value?, hinteger, hy, Option.map_some]

end

/-- Whether a double is read from its text as some double. -/
def isReadAsDouble (x : Binary64) : Bool :=
  match Numeral.read (doubleText x) with
  | some (numeral, []) =>
    match numeral.value? with
    | some (.double _) => true
    | _ => false
  | _ => false

theorem exists_of_isReadAsDouble {x : Binary64} (h : isReadAsDouble x = true) : ∃ numeral y,
    Numeral.read (doubleText x) = some (numeral, []) ∧ numeral.value? = some (.double y) := by
  unfold isReadAsDouble at h
  split at h
  · rename_i numeral hread
    split at h
    · rename_i y hvalue
      exact ⟨numeral, y, hread, hvalue⟩
    · cases h
  · cases h

/-- The three largest magnitudes, which the bound on the rounding of the reader does not cover. -/
theorem isReadAsDouble_of_largest (negative : Bool) : ∀ below : Fin 3,
    isReadAsDouble ⟨negative, Binary64.wordLimit - 1 - below,
      Nat.lt_of_le_of_lt (Nat.sub_le _ _) (Nat.sub_lt (by decide) Nat.one_pos)⟩ = true := by
  cases negative <;> decide +kernel

/-- **Every double is read from its text as some double.** -/
theorem exists_double_of_text (x : Binary64) : ∃ numeral y,
    Numeral.read (doubleText x) = some (numeral, []) ∧ numeral.value? = some (.double y) := by
  obtain ⟨bits, hbits⟩ : ∃ bits, bits = 1074 := ⟨_, rfl⟩
  by_cases hword : x.word + 1 ≤ Binary64.wordLimit - 3
  · have hunits := Binary64.unitsOf_le_unitsOf hword
    exact exists_double_of_le hbits ((Binary64.shortest_le hbits x).trans (by exact_mod_cast hunits))
  · obtain ⟨negative, word, hlt⟩ := x
    have hbelow := isReadAsDouble_of_largest negative ⟨Binary64.wordLimit - 1 - word, by dsimp only at hword; omega⟩
    have hsub : Binary64.wordLimit - 1 - (Binary64.wordLimit - 1 - word) = word := by omega
    simp only [hsub] at hbelow
    exact exists_of_isReadAsDouble hbelow

end Number

end DocIndex
