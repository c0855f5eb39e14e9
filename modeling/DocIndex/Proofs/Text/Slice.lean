import DocIndex.Proofs.Text.Order

/-!
# Slices of a text by bytes

A text is cut at offsets that count the bytes of its UTF-8 encoding. An offset cuts it only where a character
ends (`Text.splitAtByte?_eq_some_iff`), which are the valid positions of the text as a string
(`Text.isSome_splitAtByte?_iff`). In a text of ASCII characters every offset up to its length does
(`Text.slice?_of_isAscii`).
-/

namespace DocIndex

theorem utf8Bytes_cons (c : Char) (text : List Char) :
    utf8Bytes (c :: text) = String.utf8EncodeChar c ++ utf8Bytes text :=
  List.flatMap_cons

theorem length_utf8Bytes_cons (c : Char) (text : List Char) :
    (utf8Bytes (c :: text)).length = c.utf8Size + (utf8Bytes text).length := by
  rw [utf8Bytes_cons, List.length_append, String.length_utf8EncodeChar]

namespace Text

/-- What stands before a byte offset and what stands after it, if a character ends there. -/
def splitAtByte? : Nat → List Char → Option (List Char × List Char)
  | 0, text => some ([], text)
  | _ + 1, [] => none
  | offset + 1, c :: rest =>
    if c.utf8Size ≤ offset + 1 then
      (splitAtByte? (offset + 1 - c.utf8Size) rest).map fun parts => (c :: parts.1, parts.2)
    else none

/-- The slice of a text from one byte offset to another. -/
def slice? (start stop : Nat) (text : List Char) : Option (List Char) := do
  let (front, _) ← splitAtByte? stop text
  let (_, middle) ← splitAtByte? start front
  return middle

theorem splitAtByte?_zero (text : List Char) : splitAtByte? 0 text = some ([], text) := by
  cases text <;> rfl

theorem splitAtByte?_cons {offset : Nat} (h : 0 < offset) (c : Char) (rest : List Char) :
    splitAtByte? offset (c :: rest) =
      if c.utf8Size ≤ offset then
        (splitAtByte? (offset - c.utf8Size) rest).map fun parts => (c :: parts.1, parts.2)
      else none := by
  obtain ⟨offset, rfl⟩ := Nat.exists_eq_add_of_lt h
  rw [Nat.zero_add, splitAtByte?]

/-- A text is cut where its first part ends. -/
theorem splitAtByte?_append (front rest : List Char) :
    splitAtByte? (utf8Bytes front).length (front ++ rest) = some (front, rest) := by
  induction front with
  | nil => exact splitAtByte?_zero rest
  | cons c front ih =>
    have hpos := c.utf8Size_pos
    rw [List.cons_append, length_utf8Bytes_cons, splitAtByte?_cons (by omega), if_pos (by omega),
      Nat.add_sub_cancel_left, ih]
    rfl

/-- The first of the two parts of a text has as many bytes as the offset says. -/
theorem splitAtByte?_eq_some_iff {offset : Nat} {text front rest : List Char} :
    splitAtByte? offset text = some (front, rest) ↔
      text = front ++ rest ∧ (utf8Bytes front).length = offset := by
  constructor
  · intro h
    induction text generalizing offset front with
    | nil =>
      cases offset with
      | zero =>
        cases h
        exact ⟨rfl, rfl⟩
      | succ offset => cases h
    | cons c text ih =>
      rcases Nat.eq_zero_or_pos offset with rfl | hpos
      · rw [splitAtByte?_zero] at h
        cases h
        exact ⟨rfl, rfl⟩
      · rw [splitAtByte?_cons hpos, Option.ite_none_right_eq_some, Option.map_eq_some_iff] at h
        obtain ⟨hsize, ⟨front, rest⟩, hrest, hparts⟩ := h
        cases hparts
        obtain ⟨rfl, hlength⟩ := ih hrest
        rw [length_utf8Bytes_cons, hlength]
        exact ⟨rfl, Nat.add_sub_of_le hsize⟩
  · rintro ⟨rfl, rfl⟩
    exact splitAtByte?_append front rest

theorem length_utf8Bytes_toList (text : String) : (utf8Bytes text.toList).length = text.utf8ByteSize := by
  rw [← toList_toUTF8]
  rfl

/-- The offsets that cut a text are the valid positions of the string. -/
theorem isSome_splitAtByte?_iff {offset : Nat} {text : String} :
    (splitAtByte? offset text.toList).isSome = true ↔ String.Pos.Raw.IsValid text ⟨offset⟩ := by
  rw [String.Pos.Raw.isValid_iff_exists_append, Option.isSome_iff_exists]
  constructor
  · rintro ⟨⟨front, rest⟩, h⟩
    obtain ⟨htext, hoffset⟩ := splitAtByte?_eq_some_iff.mp h
    refine ⟨String.ofList front, String.ofList rest, ?_, ?_⟩
    · rw [← String.ofList_append, ← htext, String.ofList_toList]
    · rw [← hoffset, ← String.toList_ofList (l := front), length_utf8Bytes_toList, String.toList_ofList]
      rfl
  · rintro ⟨front, rest, rfl, hoffset⟩
    refine ⟨(front.toList, rest.toList), splitAtByte?_eq_some_iff.mpr ⟨String.toList_append, ?_⟩⟩
    rw [length_utf8Bytes_toList]
    exact (congrArg String.Pos.Raw.byteIdx hoffset).symm

/-- A slice is what stands between two ends of characters. -/
theorem slice?_eq_some_iff {start stop : Nat} {text middle : List Char} :
    slice? start stop text = some middle ↔ ∃ before after, text = before ++ middle ++ after ∧
      (utf8Bytes before).length = start ∧ (utf8Bytes (before ++ middle)).length = stop := by
  constructor
  · intro h
    obtain ⟨⟨front, after⟩, hfront, h⟩ := Option.bind_eq_some_iff.mp h
    obtain ⟨⟨before, rest⟩, hbefore, hrest⟩ := Option.bind_eq_some_iff.mp h
    obtain ⟨rfl, hstop⟩ := splitAtByte?_eq_some_iff.mp hfront
    obtain ⟨rfl, hstart⟩ := splitAtByte?_eq_some_iff.mp hbefore
    obtain rfl := Option.some.inj hrest
    exact ⟨before, after, rfl, hstart, hstop⟩
  · rintro ⟨before, after, rfl, rfl, rfl⟩
    rw [slice?, splitAtByte?_append]
    dsimp only [Option.bind_eq_bind, Option.bind_some]
    rw [splitAtByte?_append]
    rfl

/-! ### ASCII -/

/-- Whether every character of a text is one of ASCII. -/
def isAscii (text : List Char) : Bool := text.all fun c => decide (c.toNat < 128)

theorem isAscii_iff {text : List Char} : isAscii text = true ↔ ∀ c ∈ text, c.toNat < 128 := by
  simp [isAscii]

theorem utf8EncodeChar_of_ascii {c : Char} (h : c.toNat < 128) : String.utf8EncodeChar c = [c.toUInt8] :=
  String.utf8EncodeChar_eq_singleton
    (Char.utf8Size_eq_one_iff.mpr (UInt32.le_iff_toNat_le.mpr (Nat.le_of_lt_succ h)))

/-- The characters of an ASCII text are its bytes. -/
theorem utf8Bytes_of_isAscii {text : List Char} (h : isAscii text = true) :
    utf8Bytes text = text.map Char.toUInt8 := by
  rw [isAscii_iff] at h
  induction text with
  | nil => rfl
  | cons c text ih =>
    obtain ⟨hc, htext⟩ := List.forall_mem_cons.mp h
    rw [utf8Bytes_cons, utf8EncodeChar_of_ascii hc, ih htext]
    rfl

/-- Characters of ASCII with the same byte are the same. -/
theorem eq_of_toUInt8_eq {c d : Char} (hc : c.toNat < 128) (hd : d.toNat < 128)
    (h : c.toUInt8 = d.toUInt8) : c = d := by
  have hbyte : c.toNat % 256 = d.toNat % 256 := congrArg UInt8.toNat h
  rw [← Char.toNat_inj]
  omega

theorem length_utf8Bytes_of_isAscii {text : List Char} (h : isAscii text = true) :
    (utf8Bytes text).length = text.length := by
  rw [utf8Bytes_of_isAscii h, List.length_map]

theorem isAscii_take {text : List Char} (h : isAscii text = true) (count : Nat) :
    isAscii (text.take count) = true :=
  isAscii_iff.mpr fun c hc => isAscii_iff.mp h c (List.mem_of_mem_take hc)

/-- In an ASCII text every offset cuts between two characters. -/
theorem slice?_of_isAscii {text : List Char} (h : isAscii text = true) {start stop : Nat}
    (hstart : start ≤ stop) (hstop : stop ≤ text.length) :
    slice? start stop text = some ((text.take stop).drop start) := by
  have hfront : text.take start ++ (text.take stop).drop start = text.take stop := by
    rw [← Nat.min_eq_left hstart, ← List.take_take, Nat.min_eq_left hstart, List.take_append_drop]
  refine slice?_eq_some_iff.mpr ⟨text.take start, text.drop stop, ?_, ?_, ?_⟩
  · rw [hfront, List.take_append_drop]
  · rw [length_utf8Bytes_of_isAscii (isAscii_take h start), List.length_take]
    omega
  · rw [hfront, length_utf8Bytes_of_isAscii (isAscii_take h stop), List.length_take]
    omega

/-- The second character has two bytes: no slice ends between them. -/
example : slice? 0 1 ['a', 'é', '0'] = some ['a'] ∧ slice? 1 2 ['a', 'é', '0'] = none ∧
    slice? 1 3 ['a', 'é', '0'] = some ['é'] ∧ slice? 3 5 ['a', 'é', '0'] = none := by
  decide

/-! ### Bytes of digits -/

theorem toNat_lt_of_isDigit {c : Char} (h : c.isDigit = true) : c.toNat < 128 :=
  Nat.lt_of_le_of_lt (Char.isDigit_iff_toNat.mp h).2 (by decide)

/-- A character outside ASCII has a byte outside ASCII. -/
theorem exists_byte_of_not_ascii {c : Char} (h : 128 ≤ c.toNat) :
    ∃ b ∈ String.utf8EncodeChar c, 128 ≤ b.toNat := by
  have hone : ¬ c.val.toNat ≤ 0x7f := Nat.not_le.mpr h
  rw [String.utf8EncodeChar, if_neg hone]
  split
  · refine ⟨_, List.mem_cons_self, ?_⟩
    rw [UInt8.toNat_ofNat']
    omega
  · split <;> refine ⟨_, List.mem_cons_self, ?_⟩ <;> rw [UInt8.toNat_ofNat'] <;> omega

/-- Whether a byte is that of a decimal digit. -/
def isDigitByte (b : UInt8) : Bool := Nat.ble 48 b.toNat && Nat.ble b.toNat 57

theorem isDigitByte_iff {b : UInt8} : isDigitByte b = true ↔ 48 ≤ b.toNat ∧ b.toNat ≤ 57 := by
  simp [isDigitByte]

theorem forall_isDigitByte_iff {c : Char} :
    (∀ b ∈ String.utf8EncodeChar c, isDigitByte b = true) ↔ c.isDigit = true := by
  have hdigit : c.isDigit = true ↔ 48 ≤ c.toNat ∧ c.toNat ≤ 57 := Char.isDigit_iff_toNat
  by_cases hc : c.toNat < 128
  · have hbyte : c.toUInt8.toNat = c.toNat % 256 := rfl
    rw [utf8EncodeChar_of_ascii hc, List.forall_mem_singleton, isDigitByte_iff, hdigit, hbyte,
      Nat.mod_eq_of_lt (by omega)]
  · obtain ⟨b, hb, hlarge⟩ := exists_byte_of_not_ascii (Nat.not_lt.mp hc)
    refine iff_of_false (fun h => ?_) (fun h => ?_)
    · have hsmall := (isDigitByte_iff.mp (h b hb)).2
      omega
    · have hsmall := (hdigit.mp h).2
      omega

/-- The bytes of a text are those of digits exactly if its characters are digits. -/
theorem all_isDigitByte_iff {text : List Char} :
    (utf8Bytes text).all isDigitByte = true ↔ ∀ c ∈ text, c.isDigit = true := by
  rw [List.all_eq_true, utf8Bytes, List.forall_mem_flatMap]
  exact forall₂_congr fun c _ => forall_isDigitByte_iff

end Text

end DocIndex
