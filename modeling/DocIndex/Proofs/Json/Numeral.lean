import DocIndex.Json.Parser
import DocIndex.Json.Printer
import DocIndex.Proofs.Text.Digit

/-!
# Written numbers, read back

A numeral is read in the same way whatever follows it, as long as that cannot continue it
(`Numeral.read_append`). Every integer in range is read back from its text (`Numeral.read_ofInt`); of a
double it has to be tested (`Number.isReadBack`).
-/

namespace DocIndex

open Text (takeDigits digit? ofDigits)

namespace Numeral

/-- What follows a numeral and is no part of it. -/
def Stops (more : List Char) : Prop :=
  ∀ c ∈ more.head?, digit? c = none ∧ c ≠ '.' ∧ c ≠ 'e' ∧ c ≠ 'E'

theorem stops_nil : Stops [] := by
  intro c h
  cases h

/-! ### What follows -/

theorem takeDigits_append_of_stops {more : List Char} (hmore : Stops more) (text : List Char) :
    takeDigits (text ++ more) = ((takeDigits text).1, (takeDigits text).2 ++ more) := by
  induction text with
  | nil =>
    cases more with
    | nil => rfl
    | cons c more => simp [takeDigits, (hmore c rfl).1]
  | cons c text ih =>
    rw [List.cons_append, takeDigits, takeDigits]
    cases digit? c with
    | none => rfl
    | some d => simp [ih]

theorem readInteger_eq_some_iff {text rest : List Char} {digits : List Nat} :
    readInteger text = some (digits, rest) ↔
      takeDigits text = (digits, rest) ∧ digits ≠ [] ∧ ∀ d others, digits ≠ 0 :: d :: others := by
  unfold readInteger
  split
  · rename_i hread
    rw [hread]
    constructor
    · intro h
      cases h
    · rintro ⟨heq, hnil, -⟩
      exact absurd (Prod.mk.inj heq).1.symm hnil
  · rename_i hread
    rw [hread]
    constructor
    · intro h
      cases h
    · rintro ⟨heq, -, hzero⟩
      exact absurd (Prod.mk.inj heq).1.symm (hzero _ _)
  · rename_i hempty hzero
    rw [Option.some.injEq]
    constructor
    · intro h
      rw [h] at hempty hzero
      exact ⟨h, fun hnil => hempty rest (hnil ▸ rfl), fun d others heq => hzero d others rest (heq ▸ rfl)⟩
    · exact fun h => h.1

theorem readInteger_append {more text rest : List Char} (hmore : Stops more) {digits : List Nat}
    (h : readInteger text = some (digits, rest)) :
    readInteger (text ++ more) = some (digits, rest ++ more) := by
  rw [readInteger_eq_some_iff] at h ⊢
  rw [takeDigits_append_of_stops hmore, h.1]
  exact ⟨rfl, h.2⟩

theorem readFraction_append {more text rest : List Char} (hmore : Stops more)
    {fraction : Option (List Nat)} (h : readFraction text = some (fraction, rest)) :
    readFraction (text ++ more) = some (fraction, rest ++ more) := by
  cases text with
  | nil =>
    obtain ⟨rfl, rfl⟩ := Prod.mk.inj (Option.some.inj h)
    cases more with
    | nil => rfl
    | cons c more =>
      rw [List.nil_append, readFraction]
      rintro _ ⟨⟩
      exact (hmore _ rfl).2.1 rfl
  | cons c text =>
    by_cases hpoint : c = '.'
    · subst hpoint
      rw [List.cons_append]
      simp only [readFraction] at h ⊢
      rw [takeDigits_append_of_stops hmore]
      generalize takeDigits text = read at h
      obtain ⟨digits, after⟩ := read
      cases digits with
      | nil => cases h
      | cons d digits =>
        obtain ⟨rfl, rfl⟩ := Prod.mk.inj (Option.some.inj h)
        rfl
    · have hother : ∀ rest, readFraction (c :: rest) = some (none, c :: rest) := fun rest => by
        rw [readFraction]
        rintro _ ⟨⟩
        exact hpoint rfl
      rw [hother] at h
      obtain ⟨rfl, rfl⟩ := Prod.mk.inj (Option.some.inj h)
      exact hother _

theorem readSign_append {text : List Char} (h : text ≠ []) (more : List Char) :
    readSign (text ++ more) = ((readSign text).1, (readSign text).2 ++ more) := by
  obtain ⟨c, text, rfl⟩ := List.exists_cons_of_ne_nil h
  rw [List.cons_append]
  unfold readSign
  split <;> simp_all

theorem readExponent_of_mark {mark : Char} (hmark : mark = 'e' ∨ mark = 'E') {signed rest : List Char}
    {exponent : Option (Bool × List Nat)} :
    readExponent (mark :: signed) = some (exponent, rest) ↔
      ∃ digits, takeDigits (readSign signed).2 = (digits, rest) ∧ digits ≠ [] ∧
        exponent = some ((readSign signed).1, digits) := by
  rcases hmark with rfl | rfl <;>
  · simp only [readExponent]
    generalize takeDigits (readSign signed).2 = read
    obtain ⟨digits, after⟩ := read
    cases digits with
    | nil => simp
    | cons d digits =>
      constructor
      · intro h
        obtain ⟨rfl, rfl⟩ := Prod.mk.inj (Option.some.inj h)
        exact ⟨d :: digits, rfl, List.cons_ne_nil _ _, rfl⟩
      · rintro ⟨_, ⟨⟩, -, rfl⟩
        rfl

theorem readExponent_of_ne {c : Char} (he : c ≠ 'e') (hE : c ≠ 'E') (text : List Char) :
    readExponent (c :: text) = some (none, c :: text) := by
  rw [readExponent]
  · rintro _ ⟨⟩
    exact he rfl
  · rintro _ ⟨⟩
    exact hE rfl

theorem readExponent_append {more text rest : List Char} (hmore : Stops more)
    {exponent : Option (Bool × List Nat)} (h : readExponent text = some (exponent, rest)) :
    readExponent (text ++ more) = some (exponent, rest ++ more) := by
  cases text with
  | nil =>
    obtain ⟨rfl, rfl⟩ := Prod.mk.inj (Option.some.inj h)
    cases more with
    | nil => rfl
    | cons c more => exact readExponent_of_ne (hmore c rfl).2.2.1 (hmore c rfl).2.2.2 more
  | cons c text =>
    by_cases hmark : c = 'e' ∨ c = 'E'
    · obtain ⟨digits, hdigits, hnil, rfl⟩ := (readExponent_of_mark hmark).mp h
      have htext : text ≠ [] := by
        rintro rfl
        exact hnil (Prod.mk.inj hdigits).1.symm
      rw [List.cons_append]
      refine (readExponent_of_mark hmark).mpr ⟨digits, ?_, hnil, ?_⟩
      · rw [readSign_append htext, takeDigits_append_of_stops hmore, hdigits]
      · rw [readSign_append htext]
    · rw [not_or] at hmark
      rw [readExponent_of_ne hmark.1 hmark.2] at h
      obtain ⟨rfl, rfl⟩ := Prod.mk.inj (Option.some.inj h)
      exact readExponent_of_ne hmark.1 hmark.2 _

theorem readUnsigned_eq_some_iff {negative : Bool} {text rest : List Char} {numeral : Numeral} :
    readUnsigned negative text = some (numeral, rest) ↔
      ∃ afterInteger afterFraction,
        readInteger text = some (numeral.integer, afterInteger) ∧
        readFraction afterInteger = some (numeral.fraction, afterFraction) ∧
        readExponent afterFraction = some (numeral.exponent, rest) ∧ numeral.negative = negative := by
  obtain ⟨sign, integer, fraction, exponent⟩ := numeral
  simp only [readUnsigned, bind, pure, Option.bind_eq_some_iff, Prod.exists, Option.some.injEq,
    Prod.mk.injEq, Numeral.mk.injEq]
  constructor
  · rintro ⟨_, afterInteger, hinteger, _, afterFraction, hfraction, _, _, hexponent,
      ⟨rfl, rfl, rfl, rfl⟩, rfl⟩
    exact ⟨afterInteger, afterFraction, hinteger, hfraction, hexponent, rfl⟩
  · rintro ⟨afterInteger, afterFraction, hinteger, hfraction, hexponent, rfl⟩
    exact ⟨_, _, hinteger, _, _, hfraction, _, _, hexponent, ⟨rfl, rfl, rfl, rfl⟩, rfl⟩

theorem readUnsigned_append {more text rest : List Char} (hmore : Stops more) {negative : Bool}
    {numeral : Numeral} (h : readUnsigned negative text = some (numeral, rest)) :
    readUnsigned negative (text ++ more) = some (numeral, rest ++ more) := by
  rw [readUnsigned_eq_some_iff] at h ⊢
  obtain ⟨_, _, hinteger, hfraction, hexponent, hnegative⟩ := h
  exact ⟨_, _, readInteger_append hmore hinteger, readFraction_append hmore hfraction,
    readExponent_append hmore hexponent, hnegative⟩

/-- Unless it starts with a minus, a text is read as a numeral without sign. -/
theorem read_of_ne_minus {text : List Char} (h : text.head? ≠ some '-') :
    read text = readUnsigned false text := by
  rw [read]
  rintro _ rfl
  exact h rfl

/-- A numeral is read in the same way whatever follows it. -/
theorem read_append {more text rest : List Char} (hmore : Stops more) {numeral : Numeral}
    (h : read text = some (numeral, rest)) : read (text ++ more) = some (numeral, rest ++ more) := by
  cases text with
  | nil => cases h
  | cons c text =>
    by_cases hminus : c = '-'
    · subst hminus
      exact readUnsigned_append hmore h
    · rw [read_of_ne_minus (by simpa using hminus)] at h
      rw [read_of_ne_minus (by simpa using hminus)]
      exact readUnsigned_append hmore h

/-- A numeral starts with a minus or with a digit. -/
theorem exists_cons_of_read {text rest : List Char} {numeral : Numeral}
    (h : read text = some (numeral, rest)) :
    ∃ c others, text = c :: others ∧ (c = '-' ∨ (digit? c).isSome = true) := by
  cases text with
  | nil => cases h
  | cons c text =>
    refine ⟨c, text, rfl, ?_⟩
    by_cases hminus : c = '-'
    · exact .inl hminus
    · rw [read_of_ne_minus (by simpa using hminus), readUnsigned_eq_some_iff] at h
      obtain ⟨_, _, hinteger, -⟩ := h
      obtain ⟨hdigits, hnil, -⟩ := readInteger_eq_some_iff.mp hinteger
      right
      cases hc : digit? c with
      | none =>
        simp only [takeDigits, hc, Prod.mk.injEq] at hdigits
        exact absurd hdigits.1.symm hnil
      | some d => rfl

/-! ### Integers -/

theorem readUnsigned_ofNat (negative : Bool) (n : Nat) :
    readUnsigned negative (Text.ofNat n) =
      some (⟨negative, (Text.ofNat n).map fun c => c.toNat - 48, none, none⟩, []) := by
  have hinteger : readInteger (Text.ofNat n) = some ((Text.ofNat n).map fun c => c.toNat - 48, []) := by
    rw [readInteger_eq_some_iff]
    have htake := @Text.takeDigits_ofNat n [] (by simp)
    rw [List.append_nil] at htake
    refine ⟨htake, ?_, fun d others h => ?_⟩
    · obtain ⟨c, digits, hcons, -⟩ := Text.ofNat_eq_cons n
      rw [hcons]
      exact List.cons_ne_nil _ _
    · obtain ⟨zero, tail, hcons, hzero, htail⟩ := List.map_eq_cons_iff.mp h
      obtain ⟨c, rest, rfl, -, -⟩ := List.map_eq_cons_iff.mp htail
      have hdigit : 48 ≤ zero.toNat ∧ zero.toNat ≤ 57 :=
        Char.isDigit_iff_toNat.mp (Text.isDigit_of_mem_ofNat (hcons ▸ List.mem_cons_self))
      obtain rfl : zero = '0' := Char.toNat_inj.mp (show zero.toNat = 48 by omega)
      exact Text.ofNat_ne_zero_cons n c rest hcons
  rw [readUnsigned_eq_some_iff]
  exact ⟨[], [], hinteger, rfl, rfl, rfl⟩

/-- An integer in range is the value of its own text. -/
theorem read_ofInt {n : Int} (h : Number.inIntegerRange n = true) :
    ∃ numeral, read (Text.ofInt n) = some (numeral, []) ∧ numeral.value? = some (.int n) := by
  simp only [Number.inIntegerRange, Bool.and_eq_true, decide_eq_true_eq] at h
  obtain ⟨hlow, hhigh⟩ := h
  unfold Text.ofInt
  generalize hnatAbs : n.natAbs = m
  split
  · rename_i hneg
    obtain rfl : -(m : Int) = n := by omega
    refine ⟨_, readUnsigned_ofNat true m, ?_⟩
    have hne : m ≠ 0 := by omega
    have hle : m ≤ Range.signed64 := by omega
    simp [value?, integer?, Text.ofDigits_ofNat, hne, hle]
  · rename_i hneg
    obtain rfl : (m : Int) = n := by omega
    have hminus : (Text.ofNat m).head? ≠ some '-' := by
      obtain ⟨c, digits, hcons, hc⟩ := Text.ofNat_eq_cons m
      rw [hcons, List.head?_cons]
      rintro ⟨⟩
      cases hc
    refine ⟨_, (read_of_ne_minus hminus).trans (readUnsigned_ofNat false m), ?_⟩
    have hlt : m < Range.unsigned64 := by omega
    simp [value?, integer?, Text.ofDigits_ofNat, hlt]

end Numeral

theorem Json.isBlank_iff {c : Char} :
    isBlank c = true ↔ c = ' ' ∨ c = '\t' ∨ c = '\n' ∨ c = '\r' := by
  simp [isBlank, or_assoc]

/-! ### Texts of numbers -/

namespace Number

/-- Whether a character is one that the text of a number is made of. -/
def isTextChar (c : Char) : Bool := c.isDigit || c == '-' || c == '+' || c == '.' || c == 'e'

theorem isTextChar_of_isDigit {c : Char} (h : c.isDigit = true) : isTextChar c = true := by
  simp [isTextChar, h]

theorem all_ofNat (n : Nat) : (Text.ofNat n).all isTextChar = true :=
  List.all_eq_true.mpr fun _ hmem => isTextChar_of_isDigit (Text.isDigit_of_mem_ofNat hmem)

theorem all_ofInt (n : Int) : (Text.ofInt n).all isTextChar = true := by
  unfold Text.ofInt
  split
  · exact all_ofNat n.natAbs
  · exact all_ofNat n.natAbs

theorem all_zeros (count : Nat) : (zeros count).all isTextChar = true := by
  rw [List.all_eq_true]
  intro c hmem
  rw [List.eq_of_mem_replicate hmem]
  decide

theorem all_positional {digits : List Char} (h : digits.all isTextChar = true) (exponent : Int) :
    (positional digits exponent).all isTextChar = true := by
  have hpart : ∀ part, part <:+: digits → part.all isTextChar = true := fun part hsub =>
    List.all_eq_true.mpr fun c hmem => List.all_eq_true.mp h c (hsub.subset hmem)
  unfold positional
  split
  · simp [h, all_zeros, isTextChar]
  · dsimp only
    split
    · simp [hpart _ (List.take_prefix _ _).isInfix, hpart _ (List.drop_suffix _ _).isInfix, isTextChar]
    · simp [h, all_zeros, isTextChar]

theorem all_scientific {digits : List Char} (h : digits.all isTextChar = true) (exponent : Int) :
    (scientific digits exponent).all isTextChar = true := by
  have hsign : (if exponent < 0 then [] else ['+']).all isTextChar = true := by
    split <;> decide
  unfold scientific
  simp only [List.all_append, all_ofInt, hsign, Bool.and_true, show ['e'].all isTextChar = true from rfl]
  split
  · rfl
  · exact h
  · simp only [List.all_cons, Bool.and_eq_true] at h ⊢
    exact ⟨h.1, rfl, h.2⟩

theorem all_text (number : Number) : number.text.all isTextChar = true := by
  cases number with
  | int n => exact all_ofInt n
  | double x =>
    have hmagnitude : ∀ (positionally : Bool) digits exponent leading, digits.all isTextChar = true →
        (if positionally = true then positional digits exponent else scientific digits leading).all
          isTextChar = true := by
      intro positionally digits exponent leading h
      split
      · exact all_positional h exponent
      · exact all_scientific h leading
    simp only [text, doubleText]
    split
    · exact hmagnitude _ _ _ _ (all_ofNat _)
    · exact hmagnitude _ _ _ _ (all_ofNat _)

theorem isBlank_of_isTextChar {c : Char} (h : isTextChar c = true) : Json.isBlank c = false := by
  rw [← Bool.not_eq_true, Json.isBlank_iff]
  rintro (rfl | rfl | rfl | rfl) <;> cases h

end Number

/-- Whether a number is read back from its text: an integer has to be in range, and a double has to be
the one that its text gives. -/
def Number.isReadBack : Number → Bool
  | int n => inIntegerRange n
  | double x =>
    match Json.parse? (Json.compact (.num (.double x))) with
    | some (.num (.double y)) => decide (y = x)
    | _ => false

end DocIndex
