import DocIndex.Proofs.Time.Reader

/-!
# Years that a text can spell

A lenient date has at most ten bytes, four of which are needed for its hyphens, its month and its day. So its
year has at most four digits, or a sign and five (`Time.dateOf?_spec`).
-/

namespace DocIndex.Time

open Text (takeDigits ofDigits trim trimStart)

/-! ### Lengths -/

theorem length_le_byteLength (text : List Char) : text.length ≤ byteLength text := by
  rw [byteLength_eq]
  induction text with
  | nil => exact Nat.le_refl 0
  | cons c text ih =>
    have hpos := c.utf8Size_pos
    rw [length_utf8Bytes_cons, List.length_cons]
    omega

theorem length_trimStart_le (text : List Char) : (trimStart text).length ≤ text.length :=
  (List.dropWhile_sublist _).length_le

/-! ### Numbers -/

theorem eq_cons_of_expect {c : Char} {text rest : List Char} (h : expect c text = some rest) :
    text = c :: rest := by
  cases text with
  | nil => cases h
  | cons d text =>
    rw [expect, Option.ite_none_right_eq_some] at h
    rw [h.1, Option.some.inj h.2]

/-- A number is below the power of ten of the digits that it is read from, and these are taken off the text. -/
theorem readUpTo_spec {width n : Nat} {text rest : List Char} (h : readUpTo width text = some (n, rest)) :
    ∃ count, 0 < count ∧ count ≤ width ∧ n < 10 ^ count ∧ text.length = count + rest.length := by
  obtain ⟨digits, after, rfl, hdigits, -, htake⟩ := Text.exists_takeDigits_eq text
  rw [readUpTo, htake, ← List.map_take] at h
  have hbound := Text.ofDigits_lt fun c hc => hdigits c (List.mem_of_mem_take (i := width) hc)
  have hcount := List.length_take (i := width) (l := digits)
  split at h
  · cases h
  · rename_i hne
    cases h
    rw [List.length_map, List.length_append, List.length_drop, List.length_append]
    refine ⟨(digits.take width).length, ?_, ?_, hbound, ?_⟩
    · exact List.length_pos_iff.mpr fun hnil => hne (by rw [hnil]; rfl)
    · omega
    · omega

/-- A year is a number of up to four digits, or of any number of them after a sign. -/
theorem readUpTo_of_readYear {text rest : List Char} {year : Int} (h : readYear text = some (year, rest)) :
    readUpTo 4 text = some (year.natAbs, rest) ∨
      ∃ sign digits, text = sign :: digits ∧ readUpTo digits.length digits = some (year.natAbs, rest) := by
  unfold readYear at h
  split at h <;> obtain ⟨⟨n, _⟩, hread, heq⟩ := Option.map_eq_some_iff.mp h <;> cases heq
  · exact .inr ⟨_, _, rfl, by rwa [Int.natAbs_neg, Int.natAbs_natCast]⟩
  · exact .inr ⟨_, _, rfl, by rwa [Int.natAbs_natCast]⟩
  · exact .inl (by rwa [Int.natAbs_natCast])

theorem readYear_spec {text rest : List Char} {year : Int} (h : readYear text = some (year, rest)) :
    ∃ count, year.natAbs < 10 ^ count ∧ (count ≤ 4 ∨ count + 1 + rest.length = text.length) := by
  rcases readUpTo_of_readYear h with hread | ⟨sign, digits, rfl, hread⟩
  · obtain ⟨count, -, hwidth, hbound, -⟩ := readUpTo_spec hread
    exact ⟨count, hbound, .inl hwidth⟩
  · obtain ⟨count, -, -, hbound, hlength⟩ := readUpTo_spec hread
    exact ⟨count, hbound, .inr (by rw [List.length_cons, hlength, Nat.add_right_comm])⟩

/-! ### Dates -/

/-- Ten characters have no room for a year of six digits. -/
theorem readDate_spec {text : List Char} {date : Date} (h : readDate text = some date)
    (hlength : text.length ≤ 10) : date.exists? = true ∧ date.year.natAbs < 100000 := by
  simp only [readDate, Option.bind_eq_bind, Option.bind_eq_some_iff, Prod.exists] at h
  obtain ⟨year, text₁, hyear, text₂, hhyphen, month, text₃, hmonth, text₄, hhyphen', day, text₅, hday,
    hdate⟩ := h
  obtain ⟨count, hbound, hcount⟩ := readYear_spec hyear
  obtain ⟨monthCount, hmonthCount, -, -, hmonthLength⟩ := readUpTo_spec hmonth
  obtain ⟨dayCount, hdayCount, -, -, hdayLength⟩ := readUpTo_spec hday
  obtain rfl := eq_cons_of_expect hhyphen
  obtain rfl := eq_cons_of_expect hhyphen'
  have hstart := length_trimStart_le text
  have hstart₂ := length_trimStart_le text₂
  have hstart₄ := length_trimStart_le text₄
  rw [Option.ite_none_right_eq_some] at hdate
  obtain ⟨⟨-, hexists⟩, heq⟩ := hdate
  cases heq
  refine ⟨hexists, ?_⟩
  rw [List.length_cons] at hcount hmonthLength
  have hfive : count ≤ 5 := by omega
  exact Nat.lt_of_lt_of_le hbound (Nat.pow_le_pow_right (by decide) hfive)

/-- A lenient date exists, and its year has at most five digits. -/
theorem dateOf?_spec {text : List Char} {date : Date} (h : dateOf? text = some date) :
    date.exists? = true ∧ date.year.natAbs < 100000 := by
  have hlength := length_le_byteLength (trim text)
  unfold dateOf? at h
  dsimp only at h
  split at h
  · exact readDate_spec h (by rw [List.length_append]; simp; omega)
  · exact readDate_spec h (by rw [List.length_append]; simp; omega)
  · exact readDate_spec h (by omega)
  · cases h

end DocIndex.Time
