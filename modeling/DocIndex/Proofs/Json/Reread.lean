import DocIndex.Proofs.Json.Double
import DocIndex.Proofs.Json.Everywhere

/-!
# Values after writing and reading

What becomes of a value when it is written and read again: every double gives way to the one that its
text is read as, and nothing else changes (`Json.reread`). There always is such a double
(`Number.exists_double_of_text`), so writing and reading keeps the shape of a value; it keeps the value
itself exactly if each of its doubles is read back (`Json.reread_eq_self_iff`).
-/

namespace DocIndex

/-! ### Numbers -/

namespace Number

/-- The double that the text of a double is read as. -/
def rereadDouble (x : Binary64) : Binary64 :=
  match (Numeral.read (doubleText x)).bind fun read => read.1.value? with
  | some (.double y) => y
  | _ => x

/-- A number after writing and reading. -/
def reread : Number → Number
  | int n => int n
  | double x => double (rereadDouble x)

theorem read_doubleText (x : Binary64) : ∃ numeral,
    Numeral.read (doubleText x) = some (numeral, []) ∧
      numeral.value? = some (.double (rereadDouble x)) := by
  obtain ⟨numeral, y, hread, hvalue⟩ := exists_double_of_text x
  refine ⟨numeral, hread, ?_⟩
  rw [rereadDouble, hread, Option.bind_some, hvalue]

/-- The text of a number is read as a number, whatever follows it. -/
theorem read_text {number : Number} (h : (Json.num number).wellFormed = true) {more : List Char}
    (hmore : Numeral.Stops more) : ∃ numeral,
      Numeral.read (number.text ++ more) = some (numeral, more) ∧
        numeral.value? = some number.reread := by
  have halone : ∃ numeral, Numeral.read number.text = some (numeral, []) ∧
      numeral.value? = some number.reread := by
    cases number with
    | int n => exact Numeral.read_ofInt h
    | double x => exact read_doubleText x
  obtain ⟨numeral, hread, hvalue⟩ := halone
  exact ⟨numeral, Numeral.read_append hmore hread, hvalue⟩

end Number

namespace Json

theorem skipBlanks_cons {c : Char} (h : isBlank c = false) (text : List Char) :
    skipBlanks (c :: text) = c :: text := by
  rw [skipBlanks, List.dropWhile_cons_of_neg (by simp [h])]

/-- Where a numeral is read, so is its number. -/
theorem readValue_num {text rest : List Char} {numeral : Numeral} {number : Number}
    (hread : Numeral.read text = some (numeral, rest)) (hvalue : numeral.value? = some number)
    (depth : Nat) : readValue depth text = some (num number, rest) := by
  obtain ⟨c, others, rfl, hc⟩ := Numeral.exists_cons_of_read hread
  have hne : ∀ d, d ≠ '-' → (Text.digit? d).isSome = false → c ≠ d := by
    rintro d hminus hdigit rfl
    rcases hc with rfl | hc
    · exact hminus rfl
    · rw [hdigit] at hc
      cases hc
  have hblank : isBlank c = false := by
    rw [← Bool.not_eq_true, isBlank_iff]
    rintro (rfl | rfl | rfl | rfl) <;> exact absurd rfl (hne _ (by decide) (by decide))
  have hscalar : readScalar (c :: others) = some (num number, rest) := by
    unfold readScalar
    split
    · exact absurd (List.cons.inj ‹_›).1 (hne 'n' (by decide) (by decide))
    · exact absurd (List.cons.inj ‹_›).1 (hne 't' (by decide) (by decide))
    · exact absurd (List.cons.inj ‹_›).1 (hne 'f' (by decide) (by decide))
    · simp [hread, hvalue]
  unfold readValue
  rw [skipBlanks_cons hblank]
  split
  · exact absurd (List.cons.inj ‹_›).1 (hne '"' (by decide) (by decide))
  · exact absurd (List.cons.inj ‹_›).1 (hne '[' (by decide) (by decide))
  · exact absurd (List.cons.inj ‹_›).1 (hne '{' (by decide) (by decide))
  · exact hscalar

/-- The text of a double, read alone. -/
theorem parse?_double (x : Binary64) :
    parse? (compact (num (.double x))) = some (num (.double (Number.rereadDouble x))) := by
  obtain ⟨numeral, hread, hvalue⟩ := Number.read_doubleText x
  rw [parse?, parseWithin?, compact, String.toList_ofList, compactChars, Number.text,
    readValue_num hread hvalue]
  rfl

theorem isReadBack_double_iff {x : Binary64} :
    (Number.double x).isReadBack = true ↔ Number.rereadDouble x = x := by
  rw [Number.isReadBack, parse?_double, decide_eq_true_iff]

/-- Not every double is read back: these neighbours, `1e-24` and the next one, are read from each other's
texts. -/
example : Number.rereadDouble ⟨false, 4247835366853742247, by decide⟩ =
      ⟨false, 4247835366853742248, by decide⟩ ∧
    Number.rereadDouble ⟨false, 4247835366853742248, by decide⟩ =
      ⟨false, 4247835366853742247, by decide⟩ := by decide +kernel

/-! ### Values -/

mutual

/-- A value after writing and reading. -/
def reread : Json → Json
  | num number => num number.reread
  | arr items => arr (rereadItems items)
  | obj members => obj (rereadMembers members)
  | null => null
  | bool value => bool value
  | str text => str text
termination_by structural x => x

/-- The items after writing and reading. -/
def rereadItems : List Json → List Json
  | [] => []
  | x :: xs => reread x :: rereadItems xs
termination_by structural xs => xs

/-- The members after writing and reading. -/
def rereadMembers : List (String × Json) → List (String × Json)
  | [] => []
  | (key, x) :: xs => (key, reread x) :: rereadMembers xs
termination_by structural xs => xs

end

theorem rereadMembers_eq_mapValues (members : List (String × Json)) :
    rereadMembers members = Dict.mapValues reread members := by
  induction members with
  | nil => rfl
  | cons member members ih =>
    rw [rereadMembers, ih]
    rfl

theorem reread_obj (members : List (String × Json)) :
    (obj members).reread = obj (Dict.mapValues reread members) := by
  rw [reread, rereadMembers_eq_mapValues]

/-! ### What is kept -/

mutual

theorem depth_reread : ∀ x : Json, x.reread.depth = x.depth
  | null | bool _ | num _ | str _ => rfl
  | arr items => by rw [reread, depth, depth, depthItems_reread items]
  | obj members => by rw [reread, depth, depth, depthMembers_reread members]
termination_by structural x => x

theorem depthItems_reread : ∀ items : List Json, depthItems (rereadItems items) = depthItems items
  | [] => rfl
  | x :: xs => by rw [rereadItems, depthItems, depthItems, depth_reread x, depthItems_reread xs]
termination_by structural xs => xs

theorem depthMembers_reread : ∀ members : List (String × Json),
    depthMembers (rereadMembers members) = depthMembers members
  | [] => rfl
  | (key, x) :: xs => by
    rw [rereadMembers, depthMembers, depthMembers, depth_reread x, depthMembers_reread xs]
termination_by structural xs => xs

end

mutual

/-- Writing and reading keeps a value exactly if each of its doubles is read back. -/
theorem reread_eq_self_iff : ∀ x : Json, x.reread = x ↔ x.doublesReadBack = true
  | null | bool _ | str _ | num (.int _) => iff_of_true rfl rfl
  | num (.double x) => by
    rw [reread, Number.reread, num.injEq, Number.double.injEq, ← isReadBack_double_iff]
    rfl
  | arr items => by
    rw [reread, arr.injEq, rereadItems_eq_self_iff items]
    exact (and_iff_right rfl).symm.trans (Bool.and_eq_true _ _).symm.to_iff
  | obj members => by
    rw [reread, obj.injEq, rereadMembers_eq_self_iff members]
    exact (and_iff_right rfl).symm.trans (Bool.and_eq_true _ _).symm.to_iff
termination_by structural x => x

theorem rereadItems_eq_self_iff : ∀ items : List Json,
    rereadItems items = items ↔ everywhereItems isReadBackDouble items = true
  | [] => iff_of_true rfl rfl
  | x :: xs => by
    rw [rereadItems, everywhereItems, Bool.and_eq_true, List.cons.injEq, reread_eq_self_iff x,
      rereadItems_eq_self_iff xs, doublesReadBack]
termination_by structural xs => xs

theorem rereadMembers_eq_self_iff : ∀ members : List (String × Json),
    rereadMembers members = members ↔ everywhereMembers isReadBackDouble members = true
  | [] => iff_of_true rfl rfl
  | (key, x) :: xs => by
    rw [rereadMembers, everywhereMembers, Bool.and_eq_true, List.cons.injEq, Prod.mk.injEq,
      reread_eq_self_iff x, rereadMembers_eq_self_iff xs, doublesReadBack, and_iff_right rfl]
termination_by structural xs => xs

end

/-- The same for a member that there may be. -/
theorem map_reread_eq_self_iff (found : Option Json) :
    found.map reread = found ↔ found.all doublesReadBack = true := by
  cases found with
  | none => exact iff_of_true rfl rfl
  | some x => rw [Option.map_some, Option.some.injEq, reread_eq_self_iff, Option.all_some]

end Json

end DocIndex
