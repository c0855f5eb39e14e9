import DocIndex.Proofs.Json.RoundTrip
import DocIndex.Proofs.Text.Blank

/-!
# Compact texts

A compact text holds no control character (`all_compactChars`), so that it stays on its line whatever the
strings in it are. With more behind it, it is read as one value exactly if what follows is blank
(`IsReadable.parseWithin?_append`).
-/

namespace DocIndex.Json

/-! ### Characters -/

/-- Whether a character is no control character. -/
def isPrinted (c : Char) : Bool := Nat.ble 32 c.toNat

theorem isPrinted_hexDigit : ∀ n < 16, isPrinted (hexDigit n) = true := by decide

theorem all_escapeChar (c : Char) : (escapeChar c).all isPrinted = true := by
  unfold escapeChar
  -- the characters that are escaped by a letter
  iterate 7
    split
    · rfl
  split
  · have hhigh := isPrinted_hexDigit (c.toNat / 16) (by omega)
    have hlow := isPrinted_hexDigit (c.toNat % 16) (by omega)
    simp only [List.all_cons, List.all_nil, hhigh, hlow]
    rfl
  · simp only [List.all_cons, List.all_nil, Bool.and_true, isPrinted, Nat.ble_eq]
    omega

theorem all_quote (text : String) : (quote text).all isPrinted = true := by
  have htext : (text.toList.flatMap escapeChar).all isPrinted = true := by
    rw [List.all_flatMap, List.all_eq_true]
    exact fun c _ => all_escapeChar c
  rw [quote, List.all_cons, List.all_append, htext]
  rfl

/-- The blanks of JSON are blank in free text. -/
theorem isBlank_of_not_textBlank {c : Char} (h : Text.isBlank c = false) : isBlank c = false := by
  rw [← Bool.not_eq_true, isBlank_iff]
  rintro (rfl | rfl | rfl | rfl) <;> cases h

theorem isPrinted_of_isTextChar {c : Char} (h : Number.isTextChar c = true) : isPrinted c = true := by
  simp only [Number.isTextChar, Bool.or_eq_true, beq_iff_eq] at h
  rcases h with (((hdigit | rfl) | rfl) | rfl) | rfl
  · have hbounds : 48 ≤ c.toNat ∧ c.toNat ≤ 57 := Char.isDigit_iff_toNat.mp hdigit
    rw [isPrinted, Nat.ble_eq]
    omega
  all_goals decide

theorem isBlank_of_isTextChar {c : Char} (h : Number.isTextChar c = true) : Text.isBlank c = false := by
  simp only [Number.isTextChar, Bool.or_eq_true, beq_iff_eq] at h
  rcases h with (((hdigit | rfl) | rfl) | rfl) | rfl
  · exact Text.isBlank_of_isDigit hdigit
  all_goals decide

theorem all_number_text (number : Number) : number.text.all isPrinted = true :=
  List.all_eq_true.mpr fun c hmem =>
    isPrinted_of_isTextChar (List.all_eq_true.mp number.all_text c hmem)

mutual

/-- There is no control character in a compact text. -/
theorem all_compactChars : ∀ x : Json, (compactChars x).all isPrinted = true
  | null | bool true | bool false | arr [] | obj [] => rfl
  | num number => all_number_text number
  | str text => all_quote text
  | arr (x :: xs) => by
    rw [compactChars, List.all_cons, List.all_append, all_compactChars x, all_compactItems xs]
    rfl
  | obj ((k, x) :: xs) => by
    rw [compactChars, List.all_cons, List.all_append, List.all_cons, List.all_append, all_quote k,
      all_compactChars x, all_compactMembers xs]
    rfl
termination_by structural x => x

theorem all_compactItems : ∀ xs : List Json, (compactItems xs).all isPrinted = true
  | [] => rfl
  | x :: xs => by
    rw [compactItems, List.all_cons, List.all_append, all_compactChars x, all_compactItems xs]
    rfl
termination_by structural xs => xs

theorem all_compactMembers : ∀ xs : List (String × Json), (compactMembers xs).all isPrinted = true
  | [] => rfl
  | (k, x) :: xs => by
    rw [compactMembers, List.all_cons, List.all_append, List.all_cons, List.all_append, all_quote k,
      all_compactChars x, all_compactMembers xs]
    rfl
termination_by structural xs => xs

end

theorem newline_notMem_compactChars (x : Json) : '\n' ∉ compactChars x := fun hmem =>
  Bool.false_ne_true (List.all_eq_true.mp (all_compactChars x) '\n' hmem)

/-! ### Values that are read back -/

/-- A value that the reader reads back from its text: a well-formed one that nests no deeper than the
reader goes and whose doubles are read back from theirs. -/
structure IsReadable (x : Json) : Prop where
  /-- It is well formed. -/
  wellFormed : x.wellFormed = true
  /-- Its doubles are read back. -/
  doublesReadBack : x.doublesReadBack = true
  /-- It does not nest too deep. -/
  depth_le : x.depth ≤ depthLimit

/-- A compact text starts with a character that is not blank, and with a bracket for an array only. -/
theorem IsReadable.exists_cons {x : Json} (h : x.IsReadable) :
    ∃ c chars, compactChars x = c :: chars ∧ Text.isBlank c = false ∧ (c = '[' → ∃ items, x = arr items) := by
  have hbracket : ∀ c : Char, c ≠ '[' → c = '[' → ∃ items, x = arr items := fun c hne heq => absurd heq hne
  cases x with
  | null => exact ⟨'n', _, rfl, by decide, hbracket _ (by decide)⟩
  | bool value => cases value <;> exact ⟨_, _, rfl, by decide, hbracket _ (by decide)⟩
  | str text => exact ⟨'"', _, rfl, by decide, hbracket _ (by decide)⟩
  | arr items => cases items <;> exact ⟨'[', _, rfl, by decide, fun _ => ⟨_, rfl⟩⟩
  | obj members => cases members <;> exact ⟨'{', _, rfl, by decide, hbracket _ (by decide)⟩
  | num number =>
    obtain ⟨c, chars, hcons, -, -⟩ := exists_cons_laidOut h.wellFormed .compact 0
    have hmem : c ∈ number.text := by
      rw [show number.text = c :: chars from hcons]
      exact List.mem_cons_self
    have htext := List.all_eq_true.mp number.all_text c hmem
    refine ⟨c, chars, hcons, isBlank_of_isTextChar htext, hbracket c ?_⟩
    rintro rfl
    cases htext

/-- Of a compact text with more behind it, one value is read if the rest is blank, and none otherwise. -/
theorem IsReadable.parseWithin?_append {x : Json} (h : x.IsReadable) {rest : List Char}
    (hrest : Numeral.Stops rest) :
    parseWithin? depthLimit (compactChars x ++ rest) =
      if (skipBlanks rest).isEmpty = true then some x else none := by
  rw [parseWithin?, compactChars_eq 0,
    readValue_laidOut h.wellFormed h.depth_le .compact 0 hrest, (reread_eq_self_iff x).mpr h.doublesReadBack]

end DocIndex.Json
