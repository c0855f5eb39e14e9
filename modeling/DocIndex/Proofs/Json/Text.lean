import DocIndex.Json.Parser
import DocIndex.Json.Printer

/-!
# Written strings, read back

Whatever its characters, a written string is read back up to its closing mark
(`readString_flatMap_escapeChar`).
-/

namespace DocIndex.Json

theorem hexValue?_hexDigit : ∀ n < 16, hexValue? (hexDigit n) = some n := by decide

theorem toNat_div_sixteen (c : Char) : c.toNat / 16 * 16 + c.toNat % 16 = c.toNat := by omega

/-- The written form of a control character without a letter of its own. -/
theorem readUnicode_control {c : Char} (h : c.toNat < 32) (rest : List Char) :
    readUnicode ('0' :: '0' :: hexDigit (c.toNat / 16) :: hexDigit (c.toNat % 16) :: rest) =
      some (c, rest) := by
  have hhigh := hexValue?_hexDigit (c.toNat / 16) (by omega)
  have hlow := hexValue?_hexDigit (c.toNat % 16) (by omega)
  have hunit : readUnit ('0' :: '0' :: hexDigit (c.toNat / 16) :: hexDigit (c.toNat % 16) :: rest) =
      some (c.toNat, rest) := by
    simp only [readUnit, hhigh, hlow, show hexValue? '0' = some 0 from rfl, bind, Option.bind, pure]
    rw [show (0 * 16 + 0) * 16 + c.toNat / 16 = c.toNat / 16 by omega, toNat_div_sixteen]
  have hsmall : (Nat.blt c.toNat 0xD800 || Nat.ble 0xE000 c.toNat) = true := by
    rw [Bool.or_eq_true, Nat.blt_eq]
    omega
  simp only [readUnicode, hunit, hsmall, if_true, Char.ofNat_toNat]

/-- A character is written as itself, or as a backslash and the code of an escape. -/
theorem escapeChar_cases (c : Char) :
    (escapeChar c = [c] ∧ c ≠ '"' ∧ c ≠ '\\' ∧ ¬c.toNat < 32) ∨
      ∃ code, escapeChar c = '\\' :: code ∧ ∀ rest, readEscape (code ++ rest) = some (c, rest) := by
  unfold escapeChar
  -- the characters whose code is one letter
  iterate 7
    split
    · rename_i h
      subst h
      exact .inr ⟨_, rfl, fun _ => rfl⟩
  split
  · rename_i h
    exact .inr ⟨_, rfl, readUnicode_control h⟩
  · rename_i hmark hslash _ _ _ _ _ hcontrol
    exact .inl ⟨rfl, hmark, hslash, hcontrol⟩

/-- A written character is read as that character. -/
theorem readString_escapeChar (c : Char) (rest : List Char) :
    readString (escapeChar c ++ rest) = (readString rest).map fun read => (c :: read.1, read.2) := by
  rcases escapeChar_cases c with ⟨h, hmark, hslash, hcontrol⟩ | ⟨code, h, hcode⟩
  · rw [h, List.singleton_append, readString]
    simp [hmark, hslash, hcontrol]
  · rw [h, List.cons_append, readString]
    simp only [show ('\\' == '"') = false from rfl, beq_self_eq_true, Bool.false_eq_true, if_false, if_true]
    split
    · rename_i hnone
      rw [hcode] at hnone
      cases hnone
    · rename_i d rest' hsome
      rw [hcode, Option.some.injEq] at hsome
      cases hsome
      rfl

theorem readString_flatMap_escapeChar (text rest : List Char) :
    readString (text.flatMap escapeChar ++ '"' :: rest) = some (text, rest) := by
  induction text with
  | nil => simp [readString]
  | cons c text ih =>
    rw [List.flatMap_cons, List.append_assoc, readString_escapeChar, ih]
    rfl

end DocIndex.Json
