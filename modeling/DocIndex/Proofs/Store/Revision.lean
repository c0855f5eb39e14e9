import DocIndex.Proofs.Text.Digit
import DocIndex.Store.Revision

/-!
# Generations, read back

The generation that a revision is made from is the one that the next write reads out of it, for any
suffix, as long as it fits sixty-four bits.
-/

namespace DocIndex.Revision

theorem beforeHyphen?_append {front : List Char} (h : '-' ∉ front) (rest : List Char) :
    beforeHyphen? (front ++ '-' :: rest) = some front := by
  induction front with
  | nil => simp [beforeHyphen?]
  | cons c front ih =>
    simp only [List.mem_cons, not_or] at h
    simp [beforeHyphen?, Ne.symm h.1, ih h.2]

theorem toList_ofGeneration (n : Nat) (suffix : String) :
    (ofGeneration n suffix).toList = Text.ofNat n ++ '-' :: suffix.toList := by
  simp [ofGeneration]

/-- The generation of a revision made from one. -/
theorem generation?_ofGeneration {n : Nat} (h : n < Range.unsigned64) (suffix : String) :
    generation? (ofGeneration n suffix) = some n := by
  rw [generation?, toList_ofGeneration, beforeHyphen?_append (Text.hyphen_notMem_ofNat n), Option.bind_some,
    Text.unsigned?_ofNat h]

/-- A number in front of a hyphen is the generation. -/
theorem generation?_of_form {front rest : List Char} {n : Nat} {rev : String}
    (hform : rev.toList = front ++ '-' :: rest) (hnumber : Text.unsigned? Range.unsigned64 front = some n) :
    generation? rev = some n := by
  rw [generation?, hform, beforeHyphen?_append (Text.hyphen_notMem_of_unsigned? hnumber), Option.bind_some, hnumber]

/-- A revision made from a generation spells the digits of no other one. -/
theorem toList_ofGeneration_eq_iff {n m : Nat} {suffix : String} :
    (∃ rest, (ofGeneration n suffix).toList = Text.ofNat m ++ '-' :: rest) ↔ n = m := by
  constructor
  · rintro ⟨rest, h⟩
    rw [toList_ofGeneration] at h
    have hfront := congrArg beforeHyphen? h
    rw [beforeHyphen?_append (Text.hyphen_notMem_ofNat n), beforeHyphen?_append (Text.hyphen_notMem_ofNat m)] at hfront
    have hnumber := congrArg Text.natural? (Option.some.inj hfront)
    rw [Text.natural?_ofNat, Text.natural?_ofNat] at hnumber
    exact Option.some.inj hnumber
  · rintro rfl
    exact ⟨suffix.toList, toList_ofGeneration n suffix⟩

/-- The next revision has a generation of its own, one higher in sixty-four bits. -/
theorem generation?_next (previous : Option String) (suffix : String) :
    generation? (next previous suffix) = some ((generation previous + 1) % Range.unsigned64) :=
  generation?_ofGeneration (Nat.mod_lt _ (by decide)) suffix

/-- Below the limit the next generation is the previous one and one more. -/
theorem generation_next {previous : Option String} (h : generation previous + 1 < Range.unsigned64)
    (suffix : String) : generation (some (next previous suffix)) = generation previous + 1 := by
  rw [generation, Option.bind_some, generation?_next, Nat.mod_eq_of_lt h, Option.getD_some]

/-- No revision is the next one of itself. -/
theorem next_ne (previous : Option String) (suffix : String) : some (next previous suffix) ≠ previous := by
  intro h
  have hgeneration : generation (some (next previous suffix)) =
      (generation previous + 1) % Range.unsigned64 := by
    rw [generation, Option.bind_some, generation?_next, Option.getD_some]
  rw [h] at hgeneration
  have hlt : generation previous < Range.unsigned64 := by
    rw [hgeneration]
    exact Nat.mod_lt _ (by decide)
  rcases Nat.lt_or_ge (generation previous + 1) Range.unsigned64 with hroom | hfull
  · rw [Nat.mod_eq_of_lt hroom] at hgeneration
    omega
  · have hlast : generation previous + 1 = Range.unsigned64 := by omega
    rw [hlast, Nat.mod_self] at hgeneration
    rw [hgeneration] at hlast
    exact absurd hlast (by decide)

end DocIndex.Revision
