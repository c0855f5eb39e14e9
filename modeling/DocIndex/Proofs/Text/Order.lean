import DocIndex.Dict

/-!
# The order of keys

The order in which dictionaries keep their keys is a strict linear order on texts, and it is the
lexicographic order of their UTF-8 bytes (`precedes_iff_bytes_lt`), by which whole lists of texts are
compared as well (`Text.compareTexts`).
-/

namespace DocIndex

/-! ### A strict linear order -/

theorem precedes_cons_iff {a b : Char} {as bs : List Char} :
    precedes (a :: as) (b :: bs) = true ↔ a.toNat < b.toNat ∨ a = b ∧ precedes as bs = true := by
  simp [precedes]

theorem precedes_irrefl (text : List Char) : precedes text text = false := by
  induction text with
  | nil => rfl
  | cons c rest ih =>
    rw [← Bool.not_eq_true, precedes_cons_iff, ih]
    simp

theorem precedes_trans {as bs cs : List Char} (hab : precedes as bs = true)
    (hbc : precedes bs cs = true) : precedes as cs = true := by
  induction as generalizing bs cs with
  | nil =>
    cases cs with
    | nil => cases bs <;> cases hbc
    | cons => rfl
  | cons a as ih =>
    cases bs with
    | nil => cases hab
    | cons b bs =>
      cases cs with
      | nil => cases hbc
      | cons c cs =>
        rw [precedes_cons_iff] at hab hbc ⊢
        rcases hab with hab | ⟨rfl, hab⟩
        · rcases hbc with hbc | ⟨rfl, -⟩
          · exact .inl (Nat.lt_trans hab hbc)
          · exact .inl hab
        · rcases hbc with hbc | ⟨rfl, hbc⟩
          · exact .inl hbc
          · exact .inr ⟨rfl, ih hab hbc⟩

theorem precedes_trichotomy (as bs : List Char) :
    precedes as bs = true ∨ as = bs ∨ precedes bs as = true := by
  induction as generalizing bs with
  | nil =>
    cases bs with
    | nil => exact .inr (.inl rfl)
    | cons => exact .inl rfl
  | cons a as ih =>
    cases bs with
    | nil => exact .inr (.inr rfl)
    | cons b bs =>
      rw [precedes_cons_iff, precedes_cons_iff]
      rcases Nat.lt_trichotomy a.toNat b.toNat with hlt | heq | hgt
      · exact .inl (.inl hlt)
      · obtain rfl := Char.toNat_inj.mp heq
        rcases ih bs with h | rfl | h
        · exact .inl (.inr ⟨rfl, h⟩)
        · exact .inr (.inl rfl)
        · exact .inr (.inr (.inr ⟨rfl, h⟩))
      · exact .inr (.inr (.inl hgt))

/-! ### UTF-8 -/

/-- The bytes of a text in UTF-8. -/
def utf8Bytes (text : List Char) : List UInt8 := text.flatMap String.utf8EncodeChar

theorem toList_toUTF8 (text : String) : text.toUTF8.data.toList = utf8Bytes text.toList := by
  rw [String.toUTF8_eq_toByteArray, ← text.ofList_toList, String.toByteArray_ofList, String.toList_ofList]
  simp [List.utf8Encode, utf8Bytes, List.data_toByteArray]

/-- The encodings of two characters differ in some byte, in the way that the characters do. -/
theorem utf8EncodeChar_append_lt {a b : Char} (h : a.toNat < b.toNat) (u v : List UInt8) :
    String.utf8EncodeChar a ++ u < String.utf8EncodeChar b ++ v := by
  have hlimit : b.val.toNat < 0x110000 := by
    rcases b.valid with hlow | ⟨-, hhigh⟩
    · exact Nat.lt_trans hlow (by decide)
    · exact hhigh
  rw [Char.toNat, Char.toNat] at h
  simp only [String.utf8EncodeChar]
  generalize a.val.toNat = m at h
  generalize b.val.toNat = n at h hlimit
  have hdiv : ∀ k : Nat, k / 4096 = k / 64 / 64 ∧ k / 262144 = k / 64 / 64 / 64 := fun k => by
    rw [Nat.div_div_eq_div_mul, Nat.div_div_eq_div_mul]
    exact ⟨rfl, rfl⟩
  simp only [(hdiv m).1, (hdiv m).2, (hdiv n).1, (hdiv n).2]
  have hbyte : ∀ k < 256, (UInt8.ofNat k).toNat = k := fun k hk => by
    rw [UInt8.toNat_ofNat', Nat.mod_eq_of_lt hk]
  -- the first byte tells how long an encoding is, the others are digits
  repeat' split
  all_goals
    simp (disch := omega) only [List.cons_append, List.nil_append, List.cons_lt_cons_iff,
      UInt8.lt_iff_toNat_lt, ← UInt8.toNat_inj, hbyte]
    omega

theorem utf8Bytes_lt_of_precedes {as bs : List Char} (h : precedes as bs = true) :
    utf8Bytes as < utf8Bytes bs := by
  induction as generalizing bs with
  | nil =>
    cases bs with
    | nil => cases h
    | cons b bs =>
      obtain ⟨byte, bytes, hbytes⟩ := List.exists_cons_of_ne_nil (@String.utf8EncodeChar_ne_nil b)
      rw [utf8Bytes, utf8Bytes, List.flatMap_cons, hbytes]
      exact List.nil_lt_cons byte _
  | cons a as ih =>
    cases bs with
    | nil => cases h
    | cons b bs =>
      simp only [utf8Bytes, List.flatMap_cons]
      rcases precedes_cons_iff.mp h with hlt | ⟨rfl, hrest⟩
      · exact utf8EncodeChar_append_lt hlt _ _
      · exact List.append_left_lt (ih hrest)

/-- The order of keys is the order of their bytes. -/
theorem precedes_iff_bytes_lt (a b : String) :
    precedes a.toList b.toList = true ↔ a.toUTF8.data.toList < b.toUTF8.data.toList := by
  rw [toList_toUTF8, toList_toUTF8]
  refine ⟨utf8Bytes_lt_of_precedes, fun h => ?_⟩
  rcases precedes_trichotomy a.toList b.toList with hlt | heq | hgt
  · exact hlt
  · rw [heq] at h
    exact absurd h (List.lt_irrefl _)
  · exact absurd h (List.lt_asymm (utf8Bytes_lt_of_precedes hgt))

/-! ### Comparison -/

namespace Text

/-- The order of two texts by their bytes in UTF-8. -/
def compareBytes (a b : String) : Ordering :=
  compareOfLessAndEq a.toUTF8.data.toList b.toUTF8.data.toList

/-- The order of two lists of texts, text by text. -/
def compareTexts (as bs : List String) : Ordering := List.compareLex compareBytes as bs

theorem compareBytes_self (a : String) : compareBytes a a = .eq := by
  unfold compareBytes compareOfLessAndEq
  rw [if_neg (List.lt_irrefl _), if_pos rfl]

theorem compareTexts_self (texts : List String) : compareTexts texts texts = .eq := by
  induction texts with
  | nil => rfl
  | cons text texts ih =>
    rw [compareTexts, List.compareLex_cons_cons, compareBytes_self]
    exact ih

theorem compareBytes_of_precedes {a b : String} (h : precedes a.toList b.toList = true) :
    compareBytes a b = .lt :=
  if_pos ((precedes_iff_bytes_lt a b).mp h)

theorem compareBytes_of_follows {a b : String} (h : precedes b.toList a.toList = true) :
    compareBytes a b = .gt := by
  have hbytes := (precedes_iff_bytes_lt b a).mp h
  unfold compareBytes compareOfLessAndEq
  rw [if_neg (List.lt_asymm hbytes), if_neg]
  intro heq
  rw [heq] at hbytes
  exact List.lt_irrefl _ hbytes

end Text

end DocIndex
