import DocIndex.Text.Digit
import Mathlib.Algebra.Group.Nat.Defs

/-!
# Digits, read back

The decimal digits of a number spell that number, and a reader of digits stops where they end.
-/

namespace DocIndex.Text

theorem digit?_of_isDigit {c : Char} (h : c.isDigit = true) : digit? c = some (c.toNat - 48) := by
  have hc := Char.isDigit_iff_toNat.mp h
  simp only [digit?, Bool.and_eq_true, Nat.ble_eq]
  exact if_pos hc

/-- Digits in front of a text are taken off as they are, if no digit follows them. -/
theorem takeDigits_append {digits rest : List Char} (hdigits : ∀ c ∈ digits, c.isDigit = true)
    (hrest : ∀ c ∈ rest.head?, digit? c = none) :
    takeDigits (digits ++ rest) = (digits.map fun c => c.toNat - 48, rest) := by
  induction digits with
  | nil =>
    cases rest with
    | nil => rfl
    | cons c rest => simp [takeDigits, hrest c rfl]
  | cons c digits ih =>
    have hc := digit?_of_isDigit (hdigits c List.mem_cons_self)
    have hrec := ih fun d hd => hdigits d (List.mem_cons_of_mem c hd)
    simp [takeDigits, hc, hrec]

theorem digit?_eq_none {c : Char} (h : c.isDigit = false) : digit? c = none := by
  have hc := mt Char.isDigit_iff_toNat.mpr (Bool.eq_false_iff.mp h)
  simp only [digit?, Bool.and_eq_true, Nat.ble_eq]
  exact if_neg hc

/-- A text is split where its digits end. -/
theorem exists_takeDigits_eq (text : List Char) : ∃ digits rest, text = digits ++ rest ∧
    (∀ c ∈ digits, c.isDigit = true) ∧ (∀ c ∈ rest.head?, c.isDigit = false) ∧
    takeDigits text = (digits.map fun c => c.toNat - 48, rest) := by
  have hdigits : ∀ c ∈ text.takeWhile Char.isDigit, c.isDigit = true := fun c hc =>
    List.all_eq_true.mp List.all_takeWhile c hc
  have hrest : ∀ c ∈ (text.dropWhile Char.isDigit).head?, c.isDigit = false := by
    intro c hc
    have hnot := List.head?_dropWhile_not Char.isDigit text
    rw [Option.mem_def.mp hc] at hnot
    exact hnot
  have htext := List.takeWhile_append_dropWhile (p := Char.isDigit) (l := text)
  refine ⟨_, _, htext.symm, hdigits, hrest, ?_⟩
  rw [← takeDigits_append hdigits fun c hc => digit?_eq_none (hrest c hc), htext]

theorem foldl_map_digits (digits : List Char) (start : Nat) :
    (digits.map fun c => c.toNat - 48).foldl (fun n d => n * 10 + d) start =
      Nat.ofDigitChars 10 digits start := by
  induction digits generalizing start with
  | nil => simp
  | cons c digits ih =>
    rw [List.map_cons, List.foldl_cons, ih, Nat.ofDigitChars_cons, Nat.mul_comm]
    rfl

/-- The number that the decimal digits of a number spell. -/
theorem ofDigits_ofNat (n : Nat) : ofDigits ((ofNat n).map fun c => c.toNat - 48) = n := by
  rw [ofDigits, foldl_map_digits, ofNat, Nat.ofDigitChars_ten_toDigits]

/-- A number has no more digits than the text that spells it. -/
theorem ofDigits_lt {digits : List Char} (h : ∀ c ∈ digits, c.isDigit = true) :
    ofDigits (digits.map fun c => c.toNat - 48) < 10 ^ digits.length := by
  have hstep : ∀ start, (digits.map fun c => c.toNat - 48).foldl (fun n d => n * 10 + d) start <
      (start + 1) * 10 ^ digits.length := by
    induction digits with
    | nil => intro start; simp
    | cons c digits ih =>
      intro start
      have hc : 48 ≤ c.toNat ∧ c.toNat ≤ 57 := Char.isDigit_iff_toNat.mp (h c List.mem_cons_self)
      refine Nat.lt_of_lt_of_le (ih (fun d hd => h d (List.mem_cons_of_mem c hd)) _) ?_
      rw [List.length_cons, Nat.pow_succ', ← Nat.mul_assoc]
      refine Nat.mul_le_mul_right _ ?_
      dsimp only
      omega
  exact Nat.lt_of_lt_of_le (hstep 0) (by omega)

theorem isDigit_of_mem_ofNat {n : Nat} {c : Char} (h : c ∈ ofNat n) : c.isDigit = true :=
  Nat.isDigit_of_mem_toDigits (by decide) (by decide) h

theorem takeDigits_ofNat (n : Nat) {rest : List Char} (hrest : ∀ c ∈ rest.head?, digit? c = none) :
    takeDigits (ofNat n ++ rest) = ((ofNat n).map fun c => c.toNat - 48, rest) :=
  takeDigits_append (fun _ h => isDigit_of_mem_ofNat h) hrest

/-- The digits of a number start with a digit. -/
theorem ofNat_eq_cons (n : Nat) : ∃ c digits, ofNat n = c :: digits ∧ c.isDigit = true := by
  cases h : ofNat n with
  | nil => exact absurd h Nat.toDigits_ne_nil
  | cons c digits => exact ⟨c, digits, rfl, isDigit_of_mem_ofNat (h ▸ List.mem_cons_self)⟩

/-- No number but zero starts with a zero. -/
theorem ofNat_ne_zero_cons (n : Nat) (c : Char) (rest : List Char) : ofNat n ≠ '0' :: c :: rest := by
  induction n using Nat.strongRecOn generalizing c rest with
  | ind n ih =>
    by_cases hsmall : n < 10
    · rw [ofNat, Nat.toDigits_of_lt_base hsmall]
      intro h
      exact List.cons_ne_nil c rest (List.cons.inj h).2.symm
    · rw [Nat.not_lt] at hsmall
      rw [ofNat, Nat.toDigits_of_base_le (by decide) hsmall]
      intro h
      obtain ⟨d, digits, hcons, -⟩ := ofNat_eq_cons (n / 10)
      rw [show Nat.toDigits 10 (n / 10) = d :: digits from hcons, List.cons_append] at h
      obtain ⟨rfl, -⟩ := List.cons.inj h
      cases digits with
      | nil =>
        have hvalue := ofDigits_ofNat (n / 10)
        rw [hcons] at hvalue
        have hzero : 0 = n / 10 := hvalue
        omega
      | cons e digits => exact ih (n / 10) (by omega) e digits hcons

/-- A text of one or more digits spells the number of its digits. -/
theorem natural?_of_isDigit {text : List Char} (hne : text ≠ []) (h : ∀ c ∈ text, c.isDigit = true) :
    natural? text = some (ofDigits (text.map fun c => c.toNat - 48)) := by
  have htake := @takeDigits_append text [] h (by simp)
  rw [List.append_nil] at htake
  rw [natural?, htake]
  cases text with
  | nil => exact absurd rfl hne
  | cons c text => rfl

/-- A text of one or more digits has no plus in front, and is read if its number is below the limit. -/
theorem unsigned?_of_isDigit {text : List Char} (hne : text ≠ []) (h : ∀ c ∈ text, c.isDigit = true)
    (limit : Nat) : unsigned? limit text =
      if ofDigits (text.map fun c => c.toNat - 48) < limit then
        some (ofDigits (text.map fun c => c.toNat - 48))
      else none := by
  unfold unsigned?
  split
  · exact absurd (h '+' List.mem_cons_self) (by decide)
  · simp only [natural?_of_isDigit hne h]

theorem ofNat_ne_nil (n : Nat) : ofNat n ≠ [] := Nat.toDigits_ne_nil

/-- The digits of a number below a limit are read back as that number. -/
theorem unsigned?_ofNat {n limit : Nat} (h : n < limit) : unsigned? limit (ofNat n) = some n := by
  rw [unsigned?_of_isDigit (ofNat_ne_nil n) (fun _ => isDigit_of_mem_ofNat), ofDigits_ofNat, if_pos h]

theorem digit?_eq_some_iff {c : Char} {d : Nat} :
    digit? c = some d ↔ c.toNat = d + 48 ∧ d ≤ 9 := by
  unfold digit?
  simp only [Bool.and_eq_true, Nat.ble_eq]
  constructor
  · intro h
    split at h
    · obtain rfl := Option.some.inj h
      omega
    · cases h
  · rintro ⟨hc, hd⟩
    rw [if_pos (by omega), hc, Nat.add_sub_cancel]

/-- A text of digits starts with one, and what follows is again a text of digits. -/
theorem exists_of_takeDigits_cons {c : Char} {text : List Char} {digits : List Nat}
    (h : takeDigits (c :: text) = (digits, [])) :
    ∃ d rest, (c.toNat = d + 48 ∧ d ≤ 9) ∧ takeDigits text = (rest, []) ∧ digits = d :: rest := by
  rw [takeDigits] at h
  split at h
  · rename_i d hd
    obtain ⟨hdigits, hrest⟩ := Prod.mk.inj h
    exact ⟨d, (takeDigits text).1, digit?_eq_some_iff.mp hd, Prod.ext rfl hrest, hdigits.symm⟩
  · cases (Prod.mk.inj h).2

theorem ofNat_of_digit {c : Char} {d : Nat} (hc : c.toNat = d + 48) (hd : d ≤ 9) : ofNat d = [c] := by
  have hten : d < 10 := Nat.lt_succ_of_le hd
  have hchar : d.digitChar = c := by
    rw [← Char.toNat_inj, hc, Nat.toNat_digitChar_of_lt_ten hten, Nat.add_comm]
  rw [ofNat, Nat.toDigits_of_lt_base hten, hchar]

/-- Digits read on from a number that is not zero are written after its own digits. -/
theorem ofNat_foldl {text : List Char} {digits : List Nat} (h : takeDigits text = (digits, []))
    {start : Nat} (hstart : 0 < start) :
    ofNat (digits.foldl (fun n d => n * 10 + d) start) = ofNat start ++ text := by
  induction text generalizing digits start with
  | nil =>
    cases h
    rw [List.append_nil]
    rfl
  | cons c text ih =>
    obtain ⟨d, rest, ⟨hc, hd⟩, hrest, rfl⟩ := exists_of_takeDigits_cons h
    have hnext : ofNat (start * 10 + d) = ofNat start ++ ofNat d := by
      rw [Nat.mul_comm]
      exact (Nat.toDigits_append_toDigits (by decide) hstart (Nat.lt_succ_of_le hd)).symm
    rw [List.foldl_cons, ih hrest (by omega), hnext, ofNat_of_digit hc hd, List.append_assoc]
    rfl

theorem natural?_ofNat (n : Nat) : natural? (ofNat n) = some n := by
  rw [natural?_of_isDigit (ofNat_ne_nil n) fun _ => isDigit_of_mem_ofNat, ofDigits_ofNat]

theorem takeDigits_of_natural? {text : List Char} {n : Nat} (h : natural? text = some n) :
    ∃ digits, takeDigits text = (digits, []) ∧ n = ofDigits digits := by
  unfold natural? at h
  split at h
  · rename_i d digits htake
    exact ⟨d :: digits, htake, (Option.some.inj h).symm⟩
  · cases h

/-- A text that spells a number has only digits, and the number has no more of them. -/
theorem natural?_spec {text : List Char} {n : Nat} (h : natural? text = some n) :
    (∀ c ∈ text, c.isDigit = true) ∧ n < 10 ^ text.length := by
  obtain ⟨digits, rest, rfl, hdigits, -, htake⟩ := exists_takeDigits_eq text
  obtain ⟨numbers, hnumbers, rfl⟩ := takeDigits_of_natural? h
  rw [htake] at hnumbers
  cases hnumbers
  rw [List.append_nil]
  exact ⟨hdigits, ofDigits_lt hdigits⟩

/-- A text that spells a number without a zero in front is the number's decimal digits. -/
theorem eq_ofNat_of_natural? {text : List Char} {n : Nat} (h : natural? text = some n)
    (hzero : ∀ c rest, text ≠ '0' :: c :: rest) : text = ofNat n := by
  cases text with
  | nil => cases h
  | cons c text =>
    obtain ⟨digits, htake, rfl⟩ := takeDigits_of_natural? h
    obtain ⟨d, rest, ⟨hc, hd⟩, hrest, rfl⟩ := exists_of_takeDigits_cons htake
    rw [ofDigits, List.foldl_cons, Nat.zero_mul, Nat.zero_add]
    cases text with
    | nil =>
      cases hrest
      exact (ofNat_of_digit hc hd).symm
    | cons next text =>
      -- of several digits the first is not zero, so all of them count
      have hpos : 0 < d := by
        refine Nat.pos_of_ne_zero fun hnull => hzero next text ?_
        rw [hnull] at hc
        rw [Char.toNat_inj.mp (show c.toNat = '0'.toNat from hc)]
      rw [ofNat_foldl hrest hpos, ofNat_of_digit hc hd]
      rfl

/-! ### Digits of a fixed width -/

theorem padded_ne_nil (width n : Nat) : padded width n ≠ [] := fun h =>
  ofNat_ne_nil n (List.append_eq_nil_iff.mp h).2

theorem isDigit_of_mem_padded {width n : Nat} {c : Char} (h : c ∈ padded width n) : c.isDigit = true := by
  rcases List.mem_append.mp h with hzero | hdigit
  · rw [(List.mem_replicate.mp hzero).2]
    rfl
  · exact isDigit_of_mem_ofNat hdigit

/-- A number that has no more digits than the width is written in that width. -/
theorem length_padded {width n : Nat} (hwidth : 0 < width) (h : n < 10 ^ width) :
    (padded width n).length = width := by
  have hlength : (ofNat n).length ≤ width := (Nat.length_toDigits_le_iff (by decide) hwidth).mpr h
  rw [padded, List.length_append, List.length_replicate]
  exact Nat.sub_add_cancel hlength

/-- Zeros in front of digits do not count. -/
theorem ofDigits_padded (width n : Nat) : ofDigits ((padded width n).map fun c => c.toNat - 48) = n := by
  have hzeros : ∀ count, ((List.replicate count '0').map fun c => c.toNat - 48).foldl
      (fun m d => m * 10 + d) 0 = 0 := by
    intro count
    induction count with
    | zero => rfl
    | succ count ih => exact ih
  rw [padded, List.map_append, ofDigits, List.foldl_append, hzeros]
  exact ofDigits_ofNat n

theorem natural?_padded (width n : Nat) : natural? (padded width n) = some n := by
  rw [natural?_of_isDigit (padded_ne_nil width n) fun _ => isDigit_of_mem_padded, ofDigits_padded]

theorem unsigned?_padded {n limit : Nat} (width : Nat) (h : n < limit) :
    unsigned? limit (padded width n) = some n := by
  rw [unsigned?_of_isDigit (padded_ne_nil width n) (fun _ => isDigit_of_mem_padded), ofDigits_padded,
    if_pos h]

theorem takeDigits_padded (width n : Nat) {rest : List Char} (hrest : ∀ c ∈ rest.head?, digit? c = none) :
    takeDigits (padded width n ++ rest) = ((padded width n).map fun c => c.toNat - 48, rest) :=
  takeDigits_append (fun _ => isDigit_of_mem_padded) hrest

theorem notMem_of_takeDigits {c : Char} (hc : digit? c = none) {text : List Char} {digits : List Nat}
    (h : takeDigits text = (digits, [])) : c ∉ text := by
  induction text generalizing digits with
  | nil => exact List.not_mem_nil
  | cons first text ih =>
    obtain ⟨d, rest, hd, hrest, -⟩ := exists_of_takeDigits_cons h
    rw [List.mem_cons, not_or]
    refine ⟨?_, ih hrest⟩
    rintro rfl
    rw [digit?_eq_some_iff.mpr hd] at hc
    cases hc

theorem exists_unsigned?_eq (limit : Nat) (text : List Char) :
    ∃ digits, (text = digits ∨ text = '+' :: digits) ∧
      unsigned? limit text = (natural? digits).bind fun n => if n < limit then some n else none := by
  unfold unsigned?
  split
  · rename_i digits
    refine ⟨digits, .inr rfl, ?_⟩
    dsimp only
    cases natural? digits <;> rfl
  · refine ⟨text, .inl rfl, ?_⟩
    dsimp only
    cases natural? text <;> rfl

/-- A number below a limit is spelled by its digits, perhaps with a plus in front. -/
theorem exists_of_unsigned? {limit n : Nat} {text : List Char} (h : unsigned? limit text = some n) :
    n < limit ∧ ∃ digits, natural? digits = some n ∧ (text = digits ∨ text = '+' :: digits) := by
  obtain ⟨digits, htext, hnumber⟩ := exists_unsigned?_eq limit text
  rw [hnumber, Option.bind_eq_some_iff] at h
  obtain ⟨m, hdigits, hlimit⟩ := h
  rw [Option.ite_none_right_eq_some, Option.some_inj] at hlimit
  obtain ⟨hlt, rfl⟩ := hlimit
  exact ⟨hlt, digits, hdigits, htext⟩

/-- There is no hyphen in the text of a number. -/
theorem hyphen_notMem_of_unsigned? {limit n : Nat} {text : List Char} (h : unsigned? limit text = some n) :
    '-' ∉ text := by
  obtain ⟨-, digits, hdigits, htext⟩ := exists_of_unsigned? h
  obtain ⟨_, htake, -⟩ := takeDigits_of_natural? hdigits
  have hnone : '-' ∉ digits := notMem_of_takeDigits rfl htake
  rcases htext with rfl | rfl
  · exact hnone
  · exact List.not_mem_cons_of_ne_of_not_mem (by decide) hnone

theorem hyphen_notMem_ofNat (n : Nat) : '-' ∉ ofNat n := fun h => absurd (isDigit_of_mem_ofNat h) (by decide)

end DocIndex.Text
