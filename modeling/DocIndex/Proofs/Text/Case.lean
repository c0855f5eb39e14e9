import DocIndex.Text.Word

/-!
# Capitals and small letters

A function that takes each capital like its small letter gives the same for a text and for the text in small
letters (`map_lower`).
-/

namespace DocIndex.Text

/-- What is the same for capitals and their small letters does not depend on the case. -/
theorem map_lower {α : Type} {f : Char → α}
    (h : ∀ n < 91, 65 ≤ n → f (Char.ofNat (n + 32)) = f (Char.ofNat n)) (c : Char) : f (lower c) = f c := by
  unfold lower
  split
  · rename_i hcapital
    rw [Bool.and_eq_true, Nat.ble_eq, Nat.ble_eq] at hcapital
    rw [h c.toNat (Nat.lt_succ_of_le hcapital.2) hcapital.1, Char.ofNat_toNat]
  · rfl

theorem lower_lower (c : Char) : lower (lower c) = lower c := map_lower (by decide) c

/-- A character that is no letter is the small letter of itself alone. -/
theorem lower_eq_iff {c mark : Char} (hmark : ∀ n < 91, 65 ≤ n →
    (Char.ofNat (n + 32) == mark) = (Char.ofNat n == mark)) : lower c = mark ↔ c = mark := by
  rw [← beq_iff_eq, map_lower (f := (· == mark)) hmark, beq_iff_eq]

theorem lowercase_lowercase (text : String) : lowercase (lowercase text) = lowercase text := by
  rw [lowercase, lowercase, String.toList_ofList, List.map_map]
  exact congrArg String.ofList (List.map_congr_left fun c _ => lower_lower c)

end DocIndex.Text
