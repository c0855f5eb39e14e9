import DocIndex.Proofs.Json.RoundTrip

/-!
# Values that are read

Whatever the text, a value that is read from it is well formed and nests no deeper than the reader goes
(`wellFormed_and_depth_of_readValue`), and a reader that goes deeper reads the same (`readValue_mono`).
So the limit on the depth decides alone whether a written value is read again (`parse?_pretty_eq`).
-/

namespace DocIndex

theorem Numeral.inIntegerRange_of_integer? {numeral : Numeral} {n : Int} (h : numeral.integer? = some n) :
    Number.inIntegerRange n = true := by
  unfold integer? at h
  split at h
  · cases h
  · dsimp only at h
    simp only [Number.inIntegerRange, Bool.and_eq_true, decide_eq_true_eq]
    split at h
    · split at h
      · rename_i hsmall
        obtain rfl := Option.some.inj h
        rw [Bool.and_eq_true, Nat.ble_eq] at hsmall
        have hlimit : 0 < Range.unsigned64 := by decide
        omega
      · cases h
    · split at h
      · rename_i hsmall
        obtain rfl := Option.some.inj h
        omega
      · cases h

namespace Json

/-- A value that a reader reads from some text. -/
def Reads (item : List Char → Option (Json × List Char)) (x : Json) : Prop :=
  ∃ text rest, item text = some (x, rest)

/-- Another reader reads all that a reader reads, and alike. -/
def Extends (item other : List Char → Option (Json × List Char)) : Prop :=
  ∀ text read, item text = some read → other text = some read

variable {item : List Char → Option (Json × List Char)}

theorem wellFormed_num_of_value? {numeral : Numeral} {number : Number} (h : numeral.value? = some number) :
    wellFormed (num number) = true := by
  unfold Numeral.value? at h
  split at h
  · rename_i n hn
    obtain rfl := Option.some.inj h
    exact Numeral.inIntegerRange_of_integer? hn
  · obtain ⟨x, -, rfl⟩ := Option.map_eq_some_iff.mp h
    rfl

/-! ### Arrays and objects -/

/-- The items of an array have all been read, and are read alike by any reader that reads at least as
much. -/
theorem readItems_eq_some {fuel : Nat} {text rest : List Char} {xs : List Json}
    (h : readItems item fuel text = some (xs, rest)) :
    (∀ x ∈ xs, Reads item x) ∧
      ∀ other, Extends item other → readItems other fuel text = some (xs, rest) := by
  induction fuel generalizing text xs with
  | zero => cases h
  | succ fuel ih =>
    unfold readItems at h
    split at h
    · cases h
    · rename_i x after hx
      split at h
      · rename_i hclose
        obtain ⟨rfl, rfl⟩ := Prod.mk.inj (Option.some.inj h)
        refine ⟨fun y hmem => ?_, fun other hother => ?_⟩
        · obtain rfl := List.mem_singleton.mp hmem
          exact ⟨_, _, hx⟩
        · simp only [readItems, hother _ _ hx, hclose]
      · rename_i hcomma
        obtain ⟨⟨ys, left⟩, hys, heq⟩ := Option.map_eq_some_iff.mp h
        obtain ⟨rfl, rfl⟩ := Prod.mk.inj heq
        obtain ⟨hitems, hothers⟩ := ih hys
        refine ⟨fun y hmem => ?_, fun other hother => ?_⟩
        · rcases List.mem_cons.mp hmem with rfl | hmem
          · exact ⟨_, _, hx⟩
          · exact hitems y hmem
        · simp only [readItems, hother _ _ hx, hcomma, hothers other hother, Option.map_some]
      · cases h

theorem readArray_eq_some {text rest : List Char} {x : Json} (h : readArray item text = some (x, rest)) :
    (∃ xs, x = arr xs ∧ ∀ y ∈ xs, Reads item y) ∧
      ∀ other, Extends item other → readArray other text = some (x, rest) := by
  unfold readArray at h
  split at h
  · rename_i hclose
    obtain ⟨rfl, rfl⟩ := Prod.mk.inj (Option.some.inj h)
    refine ⟨⟨[], rfl, fun y hmem => absurd hmem List.not_mem_nil⟩, fun other _ => ?_⟩
    simp only [readArray, hclose]
  · rename_i hopen
    obtain ⟨⟨xs, left⟩, hxs, heq⟩ := Option.map_eq_some_iff.mp h
    obtain ⟨rfl, rfl⟩ := Prod.mk.inj heq
    obtain ⟨hitems, hothers⟩ := readItems_eq_some hxs
    refine ⟨⟨xs, rfl, hitems⟩, fun other hother => ?_⟩
    unfold readArray
    split
    · exact absurd ‹_› (hopen _)
    · rw [hothers other hother, Option.map_some]

theorem readMember_eq_some {text rest : List Char} {member : String × Json}
    (h : readMember item text = some (member, rest)) :
    Reads item member.2 ∧
      ∀ other, Extends item other → readMember other text = some (member, rest) := by
  unfold readMember at h
  split at h
  · rename_i quoted hquote
    split at h
    · cases h
    · rename_i key after hkey
      split at h
      · rename_i value hcolon
        obtain ⟨⟨x, left⟩, hx, heq⟩ := Option.map_eq_some_iff.mp h
        obtain ⟨rfl, rfl⟩ := Prod.mk.inj heq
        refine ⟨⟨_, _, hx⟩, fun other hother => ?_⟩
        simp only [readMember, hquote, hkey, hcolon, hother _ _ hx, Option.map_some]
      · cases h
  · cases h

theorem readMembers_eq_some {fuel : Nat} {text rest : List Char} {members : List (String × Json)}
    (h : readMembers item fuel text = some (members, rest)) :
    (∀ member ∈ members, Reads item member.2) ∧
      ∀ other, Extends item other → readMembers other fuel text = some (members, rest) := by
  induction fuel generalizing text members with
  | zero => cases h
  | succ fuel ih =>
    unfold readMembers at h
    split at h
    · cases h
    · rename_i member after hmember
      obtain ⟨hfirst, hsame⟩ := readMember_eq_some hmember
      split at h
      · rename_i hclose
        obtain ⟨rfl, rfl⟩ := Prod.mk.inj (Option.some.inj h)
        refine ⟨fun found hmem => ?_, fun other hother => ?_⟩
        · obtain rfl := List.mem_singleton.mp hmem
          exact hfirst
        · simp only [readMembers, hsame other hother, hclose]
      · rename_i hcomma
        obtain ⟨⟨others, left⟩, hrest, heq⟩ := Option.map_eq_some_iff.mp h
        obtain ⟨rfl, rfl⟩ := Prod.mk.inj heq
        obtain ⟨hmembers, hothers⟩ := ih hrest
        refine ⟨fun found hmem => ?_, fun other hother => ?_⟩
        · rcases List.mem_cons.mp hmem with rfl | hmem
          · exact hfirst
          · exact hmembers found hmem
        · simp only [readMembers, hsame other hother, hcomma, hothers other hother, Option.map_some]
      · cases h

theorem readObject_eq_some {text rest : List Char} {x : Json} (h : readObject item text = some (x, rest)) :
    (∃ members, x = obj (Dict.ofList members) ∧
        ∀ member ∈ members, Reads item member.2) ∧
      ∀ other, Extends item other → readObject other text = some (x, rest) := by
  unfold readObject at h
  split at h
  · rename_i hclose
    obtain ⟨rfl, rfl⟩ := Prod.mk.inj (Option.some.inj h)
    refine ⟨⟨[], rfl, fun y hmem => absurd hmem List.not_mem_nil⟩, fun other _ => ?_⟩
    simp only [readObject, hclose]
  · rename_i hopen
    obtain ⟨⟨members, left⟩, hmembers, heq⟩ := Option.map_eq_some_iff.mp h
    obtain ⟨rfl, rfl⟩ := Prod.mk.inj heq
    obtain ⟨hread, hothers⟩ := readMembers_eq_some hmembers
    refine ⟨⟨members, rfl, hread⟩, fun other hother => ?_⟩
    unfold readObject
    split
    · exact absurd ‹_› (hopen _)
    · rw [hothers other hother, Option.map_some]

/-! ### Values -/

/-- A value is read as an array or an object of values that nest one less deep, or as a value without
depth, for which the limit does not matter. -/
theorem readValue_cases {depth : Nat} {text : List Char} {read : Json × List Char}
    (h : readValue depth text = some read) :
    (∃ inner rest, depth = inner + 1 ∧ skipBlanks text = '[' :: rest ∧
      readArray (readValue inner) rest = some read) ∨
    (∃ inner rest, depth = inner + 1 ∧ skipBlanks text = '{' :: rest ∧
      readObject (readValue inner) rest = some read) ∨
    (read.1.wellFormed = true ∧ read.1.depth = 0 ∧ ∀ other, readValue other text = some read) := by
  unfold readValue at h
  split at h
  · rename_i rest hquote
    obtain ⟨found, hfound, rfl⟩ := Option.map_eq_some_iff.mp h
    refine .inr (.inr ⟨rfl, rfl, fun other => ?_⟩)
    simp only [readValue, hquote, hfound, Option.map_some]
  · rename_i rest hopen
    split at h
    · cases h
    · exact .inl ⟨_, rest, rfl, hopen, h⟩
  · rename_i rest hopen
    split at h
    · cases h
    · exact .inr (.inl ⟨_, rest, rfl, hopen, h⟩)
  · rename_i hquote harray hobject
    have hsame : ∀ other, readValue other text = some read := by
      intro other
      unfold readValue
      split
      · exact absurd ‹_› (hquote _)
      · exact absurd ‹_› (harray _)
      · exact absurd ‹_› (hobject _)
      · exact h
    refine .inr (.inr ⟨?_, ?_, hsame⟩)
    all_goals
      unfold readScalar at h
      split at h
      · split at h <;> cases h
        rfl
      · split at h <;> cases h
        rfl
      · split at h <;> cases h
        rfl
      · simp only [bind, pure, Option.bind_eq_some_iff, Prod.exists, Option.some.injEq] at h
        obtain ⟨numeral, after, -, number, hnumber, rfl⟩ := h
        first
        | exact wellFormed_num_of_value? hnumber
        | rfl

/-- A value that is read is well formed and nests no deeper than the reader goes. -/
theorem wellFormed_and_depth_of_readValue {depth : Nat} {text rest : List Char} {x : Json}
    (h : readValue depth text = some (x, rest)) : x.wellFormed = true ∧ x.depth ≤ depth := by
  induction depth using Nat.strongRecOn generalizing text rest x with
  | ind depth ih =>
    rcases readValue_cases h with
      ⟨inner, after, rfl, -, harray⟩ | ⟨inner, after, rfl, -, hobject⟩ | ⟨hform, hdepth, -⟩
    · obtain ⟨⟨xs, rfl, hxs⟩, -⟩ := readArray_eq_some harray
      have hall : ∀ y ∈ xs, y.wellFormed = true ∧ y.depth ≤ inner := by
        intro y hmem
        obtain ⟨front, back, hy⟩ := hxs y hmem
        exact ih inner (Nat.lt_succ_self inner) hy
      exact ⟨everywhere_arr_iff.mpr ⟨rfl, fun y hmem => (hall y hmem).1⟩,
        Nat.succ_le_succ (depthItems_le_iff.mpr fun y hmem => (hall y hmem).2)⟩
    · obtain ⟨⟨members, rfl, hmembers⟩, -⟩ := readObject_eq_some hobject
      have hall : ∀ member ∈ Dict.ofList members, member.2.wellFormed = true ∧ member.2.depth ≤ inner := by
        intro member hmem
        obtain ⟨front, back, hread⟩ := hmembers member (Dict.mem_ofList hmem)
        exact ih inner (Nat.lt_succ_self inner) hread
      exact ⟨wellFormed_obj_iff.mpr ⟨Dict.sorted_ofList members, fun member hmem => (hall member hmem).1⟩,
        Nat.succ_le_succ (depthMembers_le_iff.mpr fun member hmem => (hall member hmem).2)⟩
    · exact ⟨hform, hdepth ▸ Nat.zero_le depth⟩

/-- A reader that goes deeper reads the same. -/
theorem readValue_mono {depth deeper : Nat} (hle : depth ≤ deeper) {text : List Char}
    {read : Json × List Char} (h : readValue depth text = some read) :
    readValue deeper text = some read := by
  induction depth using Nat.strongRecOn generalizing deeper text read with
  | ind depth ih =>
    rcases readValue_cases h with
      ⟨inner, after, rfl, hopen, harray⟩ | ⟨inner, after, rfl, hopen, hobject⟩ | ⟨-, -, hsame⟩
    · obtain ⟨outer, rfl⟩ := Nat.exists_eq_add_one.mpr (Nat.zero_lt_of_lt hle)
      have hinner := fun text read => @ih inner (Nat.lt_succ_self inner) outer (Nat.le_of_succ_le_succ hle)
        text read
      simp only [readValue, hopen]
      exact (readArray_eq_some harray).2 _ hinner
    · obtain ⟨outer, rfl⟩ := Nat.exists_eq_add_one.mpr (Nat.zero_lt_of_lt hle)
      have hinner := fun text read => @ih inner (Nat.lt_succ_self inner) outer (Nat.le_of_succ_le_succ hle)
        text read
      simp only [readValue, hopen]
      exact (readObject_eq_some hobject).2 _ hinner
    · exact hsame deeper

theorem parseWithin?_eq_some {depth : Nat} {text : List Char} {x : Json}
    (h : parseWithin? depth text = some x) : ∃ rest, readValue depth text = some (x, rest) := by
  unfold parseWithin? at h
  split at h
  · rename_i y rest hread
    split at h
    · obtain rfl := Option.some.inj h
      exact ⟨rest, hread⟩
    · cases h
  · cases h

theorem wellFormed_of_parse? {text : String} {x : Json} (h : parse? text = some x) :
    x.wellFormed = true := by
  obtain ⟨rest, hread⟩ := parseWithin?_eq_some h
  exact (wellFormed_and_depth_of_readValue hread).1

theorem depth_le_of_parse? {text : String} {x : Json} (h : parse? text = some x) :
    x.depth ≤ depthLimit := by
  obtain ⟨rest, hread⟩ := parseWithin?_eq_some h
  exact (wellFormed_and_depth_of_readValue hread).2

/-- A written value that nests deeper than the reader goes is not read at all. -/
theorem parse?_pretty_eq_none {x : Json} (hform : x.wellFormed = true) (hdepth : depthLimit < x.depth) :
    parse? (pretty x) = none := by
  rw [Option.eq_none_iff_forall_ne_some]
  intro y hparse
  obtain ⟨rest, hread⟩ := parseWithin?_eq_some hparse
  rw [pretty, String.toList_ofList, prettyChars_eq] at hread
  -- with a higher limit the text would be read as a value as deep as the one that it was written from
  have hwhole := readValue_laidOut hform (Nat.le_refl x.depth) .pretty 0 Numeral.stops_nil
  rw [List.append_nil, readValue_mono (Nat.le_of_lt hdepth) hread] at hwhole
  obtain ⟨rfl, -⟩ := Prod.mk.inj (Option.some.inj hwhole)
  have hlimit := (wellFormed_and_depth_of_readValue hread).2
  rw [depth_reread] at hlimit
  exact absurd hlimit (Nat.not_le_of_lt hdepth)

/-- The limit on the depth decides whether a written value is read again. -/
theorem parse?_pretty_eq {x : Json} (hform : x.wellFormed = true) :
    parse? (pretty x) = if x.depth ≤ depthLimit then some x.reread else none := by
  split
  · exact parse?_pretty hform ‹_›
  · exact parse?_pretty_eq_none hform (Nat.lt_of_not_le ‹_›)

end Json

end DocIndex
