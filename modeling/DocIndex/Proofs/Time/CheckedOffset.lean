import DocIndex.Proofs.Time.Year

/-!
# Reading offsets with every step checked

The reader of offsets once more, on bytes and machine words: a slice of a text is taken by byte offsets, the
seconds are computed in thirty-two bits, and a step that has no result is told apart from a text that is
refused (`Time.Halt`). The checks that come before a slice or a product keep it in its bounds: where the last
sign of a text stands a character starts (`Time.lastSign?_cases`), in ASCII every slice ends between two
characters (`Time.checkedOffset_eq`), and two digits are a small number (`Time.secondsOf_eq`).
-/

namespace DocIndex.Time

open Text (natural? trim slice? splitAtByte? isAscii)

/-! ### Steps that may have no result -/

/-- A step that has no result. -/
inductive Trap where
  /-- A slice starts or ends inside a character or outside the text. -/
  | slice
  /-- A number does not fit into its word. -/
  | overflow
  /-- The digits of a fraction are no number. -/
  | fraction
  /-- A point of time is outside the calendar. -/
  | calendar
  deriving DecidableEq

/-- Why reading stops. -/
inductive Halt where
  /-- The text is no timestamp. -/
  | refused
  /-- A step has no result. -/
  | trapped (trap : Trap)
  deriving DecidableEq

section

variable {α β : Type}

/-- What is read where a text may be refused. -/
def orRefuse : Option α → Except Halt α
  | some value => .ok value
  | none => .error .refused

/-- What is read where there has to be a result. -/
def orTrap (trap : Trap) : Option α → Except Halt α
  | some value => .ok value
  | none => .error (.trapped trap)

@[simp]
theorem ok_bind (value : α) (rest : α → Except Halt β) : (Except.ok value >>= rest) = rest value := rfl

@[simp]
theorem error_bind (halt : Halt) (rest : α → Except Halt β) :
    (Except.error halt >>= rest) = Except.error halt := rfl

@[simp]
theorem orRefuse_some (value : α) : orRefuse (some value) = .ok value := rfl

@[simp]
theorem orRefuse_none : orRefuse (none : Option α) = .error .refused := rfl

@[simp]
theorem orTrap_some (trap : Trap) (value : α) : orTrap trap (some value) = .ok value := rfl

end

/-- A number in a signed word of thirty-two bits. -/
def signed32 (n : Int) : Except Halt Int :=
  if -(Range.signed32 : Int) ≤ n ∧ n < Range.signed32 then .ok n else .error (.trapped .overflow)

/-- A number in an unsigned word of thirty-two bits. -/
def unsigned32 (n : Nat) : Except Halt Nat :=
  if n < Range.unsigned32 then .ok n else .error (.trapped .overflow)

/-! ### Offsets -/

/-- The number in a signed word that a text spells, with a sign in front of its digits or without. -/
def signed32? : List Char → Option Int
  | '-' :: digits =>
    (natural? digits).bind fun n => if n ≤ Range.signed32 then some (-(n : Int)) else none
  | '+' :: digits => (natural? digits).bind fun n => if n < Range.signed32 then some (n : Int) else none
  | digits => (natural? digits).bind fun n => if n < Range.signed32 then some (n : Int) else none

/-- The seconds of an offset, each intermediate number in its word. -/
def secondsOf (sign hours minutes : Int) : Except Halt Int := do
  let hourSeconds ← signed32 (hours * 3600)
  let minuteSeconds ← signed32 (minutes * 60)
  let seconds ← signed32 (hourSeconds + minuteSeconds)
  signed32 (sign * seconds)

/-- The seconds of an offset with hours in its second and third byte, and minutes in two bytes from an
offset on. -/
def checkedSeconds (minuteStart : Nat) (text : List Char) : Except Halt Int := do
  let sign : Int := if text.head? = some '-' then -1 else 1
  let hourText ← orTrap .slice (slice? 1 3 text)
  let hours ← orRefuse (signed32? hourText)
  let minuteText ← orTrap .slice (slice? minuteStart (minuteStart + 2) text)
  let minutes ← orRefuse (signed32? minuteText)
  secondsOf sign hours minutes

/-- A trimmed offset with its sign; only in ASCII is it cut at its bytes. -/
def checkedOffset (text : List Char) : Except Halt Int :=
  if !isAscii text then .error .refused
  else if byteLength text = 6 ∧ (utf8Bytes text)[3]? = some ':'.toUInt8 then checkedSeconds 4 text
  else if byteLength text = 5 then checkedSeconds 3 text
  else .error .refused

/-- The byte offset of the last sign of a text. -/
def lastSign? : List Char → Option Nat
  | [] => none
  | c :: rest =>
    match lastSign? rest with
    | some position => some (c.utf8Size + position)
    | none => if c = '+' ∨ c = '-' then some 0 else none

/-- The text of a time and the offset that follows it, if there is one. -/
def checkedSplitOffset (text : List Char) : Except Halt (List Char × Option Int) :=
  if text.getLast? = some 'Z' then .ok (text.dropLast, some 0)
  else
    match lastSign? text with
    | some position => do
      let (time, signed) ← orTrap .slice (splitAtByte? position text)
      let offset ← checkedOffset (trim signed)
      return (time, some offset)
    | none => .ok (text, none)

/-! ### Numbers of two digits -/

theorem natural?_pair_lt {c d : Char} {n : Nat} (h : natural? [c, d] = some n) : n < 100 := by
  have hn := (Text.natural?_spec h).2
  rwa [List.length_cons, List.length_singleton, show 10 ^ (1 + 1) = 100 from rfl] at hn

theorem signed32?_of_ne {c : Char} (h : ¬(c = '+' ∨ c = '-')) (rest : List Char) :
    signed32? (c :: rest) =
      (natural? (c :: rest)).bind fun n => if n < Range.signed32 then some (n : Int) else none := by
  rw [not_or] at h
  unfold signed32?
  split
  · rename_i heq
    exact absurd (List.cons.inj heq).1 h.2
  · rename_i heq
    exact absurd (List.cons.inj heq).1 h.1
  · rfl

/-- Two characters without a sign fit into the word. -/
theorem signed32?_pair {c d : Char} (h : ¬(c = '+' ∨ c = '-')) :
    signed32? [c, d] = (natural? [c, d]).map fun n : Nat => (n : Int) := by
  rw [signed32?_of_ne h]
  cases hn : natural? [c, d] with
  | none => rfl
  | some n => exact if_pos (Nat.lt_trans (natural?_pair_lt hn) (by decide))

theorem signed32_eq_ok {n : Int} (h : n.natAbs ≤ 1000000) : signed32 n = .ok n := by
  have hlimit : 1000000 < Range.signed32 := by decide
  refine if_pos ?_
  omega

/-- Hours and minutes of two digits are far below the word's limit in seconds. -/
theorem secondsOf_eq {sign : Int} {hours minutes : Nat} (hsign : sign.natAbs = 1) (hhours : hours < 100)
    (hminutes : minutes < 100) :
    secondsOf sign hours minutes = .ok (sign * (hours * 3600 + minutes * 60 : Nat)) := by
  have hseconds : (sign * (hours * 3600 + minutes * 60)).natAbs ≤ 1000000 := by
    rw [Int.natAbs_mul, hsign, Nat.one_mul]
    omega
  rw [secondsOf, signed32_eq_ok (by omega), ok_bind, signed32_eq_ok (by omega), ok_bind,
    signed32_eq_ok (by omega), ok_bind, signed32_eq_ok hseconds]
  push_cast
  rfl

/-- From slices of two characters without a sign the seconds are computed inside their words. -/
theorem checkedSeconds_eq {text : List Char} {sign h₁ h₂ m₁ m₂ : Char} {minuteStart : Nat}
    (hsign : text.head? = some sign) (hhour : slice? 1 3 text = some [h₁, h₂])
    (hminute : slice? minuteStart (minuteStart + 2) text = some [m₁, m₂])
    (hh₁ : ¬(h₁ = '+' ∨ h₁ = '-')) (hm₁ : ¬(m₁ = '+' ∨ m₁ = '-')) :
    checkedSeconds minuteStart text = orRefuse (offsetOf? sign h₁ h₂ m₁ m₂) := by
  have hfactor : (if some sign = some '-' then (-1 : Int) else 1).natAbs = 1 := by
    split <;> rfl
  rw [checkedSeconds, hhour, hminute, hsign, orTrap_some, ok_bind, signed32?_pair hh₁, orTrap_some, offsetOf?]
  cases hhours : natural? [h₁, h₂] with
  | none => rfl
  | some hours =>
    rw [Option.map_some, orRefuse_some, ok_bind, ok_bind, signed32?_pair hm₁]
    cases hminutes : natural? [m₁, m₂] with
    | none => rfl
    | some minutes =>
      rw [Option.map_some, orRefuse_some, ok_bind,
        secondsOf_eq hfactor (natural?_pair_lt hhours) (natural?_pair_lt hminutes)]
      by_cases hminus : sign = '-'
      · simp [hminus]
      · simp [hminus]

/-! ### Slices of an offset -/

theorem ascii_of_offsetOf? {sign h₁ h₂ m₁ m₂ : Char} {offset : Int}
    (h : offsetOf? sign h₁ h₂ m₁ m₂ = some offset) : ∀ c ∈ [h₁, h₂, m₁, m₂], c.toNat < 128 := by
  obtain ⟨hours, hhours, h⟩ := Option.bind_eq_some_iff.mp h
  obtain ⟨minutes, hminutes, -⟩ := Option.bind_eq_some_iff.mp h
  intro c hc
  rcases List.mem_append.mp (show c ∈ [h₁, h₂] ++ [m₁, m₂] from hc) with hc | hc
  · exact Text.toNat_lt_of_isDigit ((Text.natural?_spec hhours).1 c hc)
  · exact Text.toNat_lt_of_isDigit ((Text.natural?_spec hminutes).1 c hc)

/-- An offset that is read has only digits and perhaps a colon after its sign. -/
theorem ascii_of_readLenientOffset {sign : Char} {rest : List Char} {offset : Int}
    (h : readLenientOffset (sign :: rest) = some offset) : ∀ c ∈ rest, c.toNat < 128 := by
  unfold readLenientOffset at h
  split at h
  · rename_i heq
    cases heq
    have hdigits := ascii_of_offsetOf? h
    rw [List.forall_mem_cons, List.forall_mem_cons] at hdigits
    exact List.forall_mem_cons.mpr ⟨hdigits.1, List.forall_mem_cons.mpr
      ⟨hdigits.2.1, List.forall_mem_cons.mpr ⟨by decide, hdigits.2.2⟩⟩⟩
  · rename_i heq
    cases heq
    exact ascii_of_offsetOf? h
  · cases h

theorem readLenientOffset_of_length {text : List Char} (hfive : text.length ≠ 5) (hsix : text.length ≠ 6) :
    readLenientOffset text = none := by
  unfold readLenientOffset
  split
  · exact absurd rfl hsix
  · exact absurd rfl hfive
  · rfl

theorem readLenientOffset_without_colon (sign h₁ h₂ m₁ m₂ : Char) :
    readLenientOffset [sign, h₁, h₂, m₁, m₂] = offsetOf? sign h₁ h₂ m₁ m₂ := by
  simp [readLenientOffset]

/-- In ASCII the lengths and the byte between hours and minutes are those of the characters. -/
theorem checkedOffset_of_isAscii {text : List Char} (h : isAscii text = true) :
    checkedOffset text =
      if text.length = 6 ∧ (text.map Char.toUInt8)[3]? = some ':'.toUInt8 then checkedSeconds 4 text
      else if text.length = 5 then checkedSeconds 3 text
      else .error .refused := by
  rw [checkedOffset, byteLength_of_isAscii h, Text.utf8Bytes_of_isAscii h, h]
  rfl

section

variable {sign h₁ h₂ m₁ m₂ : Char}

theorem checkedOffset_of_five (hascii : isAscii [sign, h₁, h₂, m₁, m₂] = true)
    (hrest : ∀ c ∈ [h₁, h₂, m₁, m₂], ¬(c = '+' ∨ c = '-')) :
    checkedOffset [sign, h₁, h₂, m₁, m₂] = orRefuse (readLenientOffset [sign, h₁, h₂, m₁, m₂]) := by
  have hslice := fun start stop => @Text.slice?_of_isAscii _ hascii start stop
  rw [checkedOffset_of_isAscii hascii, if_neg (by simp), if_pos (by rfl), readLenientOffset_without_colon]
  exact checkedSeconds_eq rfl (hslice 1 3 (by decide) (by simp)) (hslice 3 5 (by decide) (by simp))
    (hrest h₁ (by simp)) (hrest m₁ (by simp))

theorem checkedOffset_of_six {c : Char} (hascii : isAscii [sign, h₁, h₂, c, m₁, m₂] = true)
    (hrest : ∀ d ∈ [h₁, h₂, c, m₁, m₂], ¬(d = '+' ∨ d = '-')) :
    checkedOffset [sign, h₁, h₂, c, m₁, m₂] = orRefuse (readLenientOffset [sign, h₁, h₂, c, m₁, m₂]) := by
  have hslice := fun start stop => @Text.slice?_of_isAscii _ hascii start stop
  rw [checkedOffset_of_isAscii hascii]
  by_cases hc : c = ':'
  · subst hc
    rw [if_pos ⟨by rfl, by rfl⟩]
    exact checkedSeconds_eq rfl (hslice 1 3 (by decide) (by simp)) (hslice 4 6 (by decide) (by simp))
      (hrest h₁ (by simp)) (hrest m₁ (by simp))
  · have hbyte : c.toUInt8 ≠ ':'.toUInt8 := fun h =>
      hc (Text.eq_of_toUInt8_eq (Text.isAscii_iff.mp hascii c (by simp)) (by decide) h)
    rw [if_neg (by simp [hbyte]), if_neg (by simp)]
    simp [readLenientOffset, hc]

end

/-- The guards on ASCII and on the length keep every slice of an offset between two characters. -/
theorem checkedOffset_eq {sign : Char} {rest : List Char} (hsign : sign.toNat < 128)
    (hrest : ∀ c ∈ rest, ¬(c = '+' ∨ c = '-')) :
    checkedOffset (sign :: rest) = orRefuse (readLenientOffset (sign :: rest)) := by
  by_cases hascii : isAscii (sign :: rest) = true
  · match rest with
    | [_, _, _, _] => exact checkedOffset_of_five hascii hrest
    | [_, _, _, _, _] => exact checkedOffset_of_six hascii hrest
    | [] | [_] | [_, _] | [_, _, _] | _ :: _ :: _ :: _ :: _ :: _ :: _ =>
      rw [checkedOffset_of_isAscii hascii, if_neg (by simp), if_neg (by simp),
        readLenientOffset_of_length (by simp) (by simp)]
      rfl
  · -- what is read is in ASCII, so nothing but ASCII is read
    have hnone : readLenientOffset (sign :: rest) = none := by
      refine Option.eq_none_iff_forall_not_mem.mpr fun offset hoffset => hascii ?_
      exact Text.isAscii_iff.mpr (List.forall_mem_cons.mpr ⟨hsign, ascii_of_readLenientOffset hoffset⟩)
    rw [checkedOffset, hnone, Bool.eq_false_iff.mpr hascii]
    rfl

/-! ### The last sign -/

/-- The offset of the last sign is the length of what stands before it. -/
theorem lastSign?_cases (text : List Char) :
    (lastSign? text = none ∧ ∀ c ∈ text, ¬(c = '+' ∨ c = '-')) ∨
      ∃ front sign rest, text = front ++ sign :: rest ∧ lastSign? text = some (utf8Bytes front).length ∧
        (sign = '+' ∨ sign = '-') ∧ ∀ c ∈ rest, ¬(c = '+' ∨ c = '-') := by
  induction text with
  | nil => exact .inl ⟨rfl, by simp⟩
  | cons c text ih =>
    rcases ih with ⟨hlast, hnone⟩ | ⟨front, sign, rest, rfl, hlast, hsign, hrest⟩
    · by_cases hc : c = '+' ∨ c = '-'
      · refine .inr ⟨[], c, text, rfl, ?_, hc, hnone⟩
        rw [lastSign?, hlast]
        exact if_pos hc
      · refine .inl ⟨?_, List.forall_mem_cons.mpr ⟨hc, hnone⟩⟩
        rw [lastSign?, hlast]
        exact if_neg hc
    · refine .inr ⟨c :: front, sign, rest, rfl, ?_, hsign, hrest⟩
      rw [lastSign?, hlast, length_utf8Bytes_cons]

/-- A text is cut in front of its last sign, and the offset that starts there has no other sign. -/
theorem checkedSplitOffset_cases (text : List Char) :
    (checkedSplitOffset text = .error .refused ∧ splitOffset text = none) ∨
      ∃ time offset, checkedSplitOffset text = .ok (time, offset) ∧
        splitOffset text = some (time, offset.getD 0) := by
  unfold checkedSplitOffset splitOffset
  by_cases hmark : text.getLast? = some 'Z'
  · rw [if_pos hmark, if_pos hmark]
    exact .inr ⟨text.dropLast, some 0, rfl, rfl⟩
  rw [if_neg hmark, if_neg hmark]
  rcases lastSign?_cases text with ⟨hlast, hnone⟩ | ⟨front, sign, rest, rfl, hlast, hsign, hrest⟩
  · rw [hlast, splitLastSign?_eq_none hnone]
    exact .inr ⟨text, none, rfl, rfl⟩
  · have hguard : sign.toNat < 128 ∧ Text.isBlank sign = false := by
      rcases hsign with rfl | rfl <;> decide
    have htrimmed : ∀ c ∈ Text.trimEnd rest, ¬(c = '+' ∨ c = '-') := fun c hc =>
      hrest c ((Text.trimEnd_sublist rest).mem hc)
    rw [hlast, splitLastSign?_append hsign hrest]
    dsimp only
    rw [Text.splitAtByte?_append, orTrap_some, ok_bind]
    dsimp only
    rw [Text.trim_cons hguard.2, checkedOffset_eq hguard.1 htrimmed]
    cases readLenientOffset (sign :: Text.trimEnd rest) with
    | none => exact .inl ⟨rfl, rfl⟩
    | some offset => exact .inr ⟨front, some offset, rfl, rfl⟩

end DocIndex.Time
