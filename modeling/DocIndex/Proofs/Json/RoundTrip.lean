import DocIndex.Proofs.Json.Reread
import DocIndex.Proofs.Json.Text

/-!
# Written values, read again

The compact and the pretty form are two layouts of one writer, which differ in the blanks that they put
between the parts of a text. Whatever the layout, the text of a well-formed value that nests no deeper than
the reader goes is read as that value with its doubles read again (`readValue_laidOut`), hence as the value
itself if these are read back (`reread_eq_self_iff`).
-/

namespace DocIndex.Json

/-! ### Layouts -/

/-- The blanks that a written form puts in. -/
structure Layout where
  /-- In front of an item or a closing bracket, by the level of indent. -/
  line : Nat → List Char
  /-- After the colon of a member. -/
  gap : List Char
  /-- These are blanks. -/
  line_blank : ∀ level, (line level).all isBlank = true
  /-- So are these. -/
  gap_blank : gap.all isBlank = true

/-- No blanks at all. -/
def Layout.compact : Layout := ⟨fun _ => [], [], fun _ => rfl, rfl⟩

/-- A line for each item or member. -/
def Layout.pretty : Layout where
  line := newline
  gap := [' ']
  line_blank level := by simp [newline, isBlank]
  gap_blank := rfl

mutual

/-- The text of a value in a layout. -/
def laidOut (layout : Layout) (level : Nat) : Json → List Char
  | null => ['n', 'u', 'l', 'l']
  | bool true => ['t', 'r', 'u', 'e']
  | bool false => ['f', 'a', 'l', 's', 'e']
  | num n => n.text
  | str text => quote text
  | arr [] => ['[', ']']
  | arr (x :: xs) =>
    '[' :: (layout.line (level + 1) ++ laidOut layout (level + 1) x ++ laidOutItems layout level xs)
  | obj [] => ['{', '}']
  | obj ((k, x) :: xs) =>
    '{' :: (layout.line (level + 1) ++ quote k ++ ':' :: layout.gap ++ laidOut layout (level + 1) x ++
      laidOutMembers layout level xs)
termination_by structural x => x

/-- The items after the first one, and the closing bracket. -/
def laidOutItems (layout : Layout) (level : Nat) : List Json → List Char
  | [] => layout.line level ++ [']']
  | x :: xs =>
    ',' :: (layout.line (level + 1) ++ laidOut layout (level + 1) x ++ laidOutItems layout level xs)
termination_by structural xs => xs

/-- The members after the first one, and the closing brace. -/
def laidOutMembers (layout : Layout) (level : Nat) : List (String × Json) → List Char
  | [] => layout.line level ++ ['}']
  | (k, x) :: xs =>
    ',' :: (layout.line (level + 1) ++ quote k ++ ':' :: layout.gap ++ laidOut layout (level + 1) x ++
      laidOutMembers layout level xs)
termination_by structural xs => xs

end

mutual

theorem prettyChars_eq (level : Nat) : ∀ x : Json, prettyChars level x = laidOut .pretty level x
  | null | bool true | bool false | num _ | str _ | arr [] | obj [] => rfl
  | arr (x :: xs) => by
    rw [prettyChars, laidOut, prettyChars_eq (level + 1) x, prettyItems_eq level xs]
    rfl
  | obj ((k, x) :: xs) => by
    rw [prettyChars, laidOut, prettyChars_eq (level + 1) x, prettyMembers_eq level xs]
    rfl
termination_by structural x => x

theorem prettyItems_eq (level : Nat) :
    ∀ xs : List Json, prettyItems level xs = laidOutItems .pretty level xs
  | [] => rfl
  | x :: xs => by
    rw [prettyItems, laidOutItems, prettyChars_eq (level + 1) x, prettyItems_eq level xs]
    rfl
termination_by structural xs => xs

theorem prettyMembers_eq (level : Nat) :
    ∀ xs : List (String × Json), prettyMembers level xs = laidOutMembers .pretty level xs
  | [] => rfl
  | (k, x) :: xs => by
    rw [prettyMembers, laidOutMembers, prettyChars_eq (level + 1) x, prettyMembers_eq level xs]
    rfl
termination_by structural xs => xs

end

mutual

theorem compactChars_eq (level : Nat) : ∀ x : Json, compactChars x = laidOut .compact level x
  | null | bool true | bool false | num _ | str _ | arr [] | obj [] => rfl
  | arr (x :: xs) => by
    rw [compactChars, laidOut, compactChars_eq (level + 1) x, compactItems_eq level xs]
    rfl
  | obj ((k, x) :: xs) => by
    rw [compactChars, laidOut, compactChars_eq (level + 1) x, compactMembers_eq level xs,
      List.append_assoc, List.append_assoc]
    rfl
termination_by structural x => x

theorem compactItems_eq (level : Nat) :
    ∀ xs : List Json, compactItems xs = laidOutItems .compact level xs
  | [] => rfl
  | x :: xs => by
    rw [compactItems, laidOutItems, compactChars_eq (level + 1) x, compactItems_eq level xs]
    rfl
termination_by structural xs => xs

theorem compactMembers_eq (level : Nat) :
    ∀ xs : List (String × Json), compactMembers xs = laidOutMembers .compact level xs
  | [] => rfl
  | (k, x) :: xs => by
    rw [compactMembers, laidOutMembers, compactChars_eq (level + 1) x, compactMembers_eq level xs,
      List.append_assoc, List.append_assoc]
    rfl
termination_by structural xs => xs

end

/-! ### Blanks and delimiters -/

theorem skipBlanks_append {blanks : List Char} (h : blanks.all isBlank = true) (text : List Char) :
    skipBlanks (blanks ++ text) = skipBlanks text := by
  rw [skipBlanks, List.dropWhile_append_of_pos (List.all_eq_true.mp h), skipBlanks]

/-- What may follow a value: the end, a blank, a comma or a closing bracket. -/
theorem stops_cons {c : Char} (h : isBlank c = true ∨ c = ',' ∨ c = ']' ∨ c = '}') (text : List Char) :
    Numeral.Stops (c :: text) := by
  intro d hd
  obtain rfl : c = d := by simpa using hd
  rw [isBlank_iff] at h
  rcases h with (rfl | rfl | rfl | rfl) | rfl | rfl | rfl <;> decide

theorem stops_append {blanks : List Char} (h : blanks.all isBlank = true) {text : List Char}
    (htext : Numeral.Stops text) : Numeral.Stops (blanks ++ text) := by
  cases blanks with
  | nil => exact htext
  | cons c blanks =>
    rw [List.all_cons, Bool.and_eq_true] at h
    exact stops_cons (.inl h.1) _

variable {layout : Layout} {level : Nat}

theorem stops_laidOutItems (xs : List Json) (rest : List Char) :
    Numeral.Stops (laidOutItems layout level xs ++ rest) := by
  cases xs with
  | nil =>
    rw [laidOutItems, List.append_assoc]
    exact stops_append (layout.line_blank level) (stops_cons (by decide) rest)
  | cons x xs => exact stops_cons (by decide) _

theorem stops_laidOutMembers (xs : List (String × Json)) (rest : List Char) :
    Numeral.Stops (laidOutMembers layout level xs ++ rest) := by
  cases xs with
  | nil =>
    rw [laidOutMembers, List.append_assoc]
    exact stops_append (layout.line_blank level) (stops_cons (by decide) rest)
  | cons x xs => exact stops_cons (by decide) _

/-! ### Items and members -/

theorem length_le_laidOutItems (xs : List Json) : xs.length < (laidOutItems layout level xs).length := by
  induction xs with
  | nil => simp [laidOutItems]
  | cons x xs ih =>
    simp only [laidOutItems, List.length_cons, List.length_append]
    omega

theorem length_le_laidOutMembers (xs : List (String × Json)) :
    xs.length < (laidOutMembers layout level xs).length := by
  induction xs with
  | nil => simp [laidOutMembers]
  | cons member xs ih =>
    obtain ⟨k, x⟩ := member
    simp only [laidOutMembers, List.length_cons, List.length_append]
    omega

/-- Items are read again if each of them is. -/
theorem readItems_laidOut {item : List Char → Option (Json × List Char)} {x : Json} {xs : List Json}
    (hitem : ∀ y ∈ x :: xs, ∀ rest, Numeral.Stops rest →
      item (layout.line (level + 1) ++ laidOut layout (level + 1) y ++ rest) = some (y.reread, rest))
    {fuel : Nat} (hfuel : xs.length < fuel) (rest : List Char) :
    readItems item fuel (layout.line (level + 1) ++ laidOut layout (level + 1) x ++
      (laidOutItems layout level xs ++ rest)) = some (rereadItems (x :: xs), rest) := by
  induction xs generalizing x fuel with
  | nil =>
    obtain ⟨fuel, rfl⟩ := Nat.exists_eq_add_one.mpr hfuel
    rw [readItems, hitem x List.mem_cons_self _ (stops_laidOutItems [] rest)]
    simp only [laidOutItems, List.append_assoc]
    rw [skipBlanks_append (layout.line_blank level), List.singleton_append, skipBlanks_cons (by decide)]
    rfl
  | cons y ys ih =>
    obtain ⟨fuel, rfl⟩ := Nat.exists_eq_add_one.mpr (Nat.zero_lt_of_lt hfuel)
    have hrest := ih (fun z hmem => hitem z (List.mem_cons_of_mem x hmem)) (Nat.lt_of_succ_lt_succ hfuel)
    rw [readItems, hitem x List.mem_cons_self _ (stops_laidOutItems (y :: ys) rest)]
    simp only [laidOutItems, List.cons_append]
    rw [skipBlanks_cons (by decide)]
    simp only [List.append_assoc] at hrest ⊢
    rw [hrest]
    rfl

theorem readMember_laidOut {item : List Char → Option (Json × List Char)} {x : Json} {rest : List Char}
    (hitem : item (layout.gap ++ laidOut layout (level + 1) x ++ rest) = some (x.reread, rest))
    (key : String) :
    readMember item (layout.line (level + 1) ++ quote key ++ ':' :: layout.gap ++
      laidOut layout (level + 1) x ++ rest) = some ((key, x.reread), rest) := by
  simp only [readMember, quote, List.append_assoc, List.cons_append, List.nil_append] at hitem ⊢
  rw [skipBlanks_append (layout.line_blank (level + 1)), skipBlanks_cons (by decide)]
  simp only [readString_flatMap_escapeChar]
  rw [skipBlanks_cons (by decide)]
  simp only [hitem, Option.map_some, String.ofList_toList]

/-- Members are read again if the value of each of them is. -/
theorem readMembers_laidOut {item : List Char → Option (Json × List Char)} {k : String} {x : Json}
    {xs : List (String × Json)}
    (hitem : ∀ member ∈ (k, x) :: xs, ∀ rest, Numeral.Stops rest →
      item (layout.gap ++ laidOut layout (level + 1) member.2 ++ rest) = some (member.2.reread, rest))
    {fuel : Nat} (hfuel : xs.length < fuel) (rest : List Char) :
    readMembers item fuel (layout.line (level + 1) ++ quote k ++ ':' :: layout.gap ++
      laidOut layout (level + 1) x ++ (laidOutMembers layout level xs ++ rest)) =
        some (rereadMembers ((k, x) :: xs), rest) := by
  induction xs generalizing k x fuel with
  | nil =>
    obtain ⟨fuel, rfl⟩ := Nat.exists_eq_add_one.mpr hfuel
    have hstops : Numeral.Stops (laidOutMembers layout level [] ++ rest) := stops_laidOutMembers [] rest
    have hfirst := hitem (k, x) List.mem_cons_self _ hstops
    rw [readMembers, readMember_laidOut hfirst]
    simp only [laidOutMembers, List.append_assoc]
    rw [skipBlanks_append (layout.line_blank level), List.singleton_append, skipBlanks_cons (by decide)]
    rfl
  | cons member xs ih =>
    obtain ⟨l, y⟩ := member
    obtain ⟨fuel, rfl⟩ := Nat.exists_eq_add_one.mpr (Nat.zero_lt_of_lt hfuel)
    have hstops : Numeral.Stops (laidOutMembers layout level ((l, y) :: xs) ++ rest) :=
      stops_laidOutMembers _ rest
    have hfirst := hitem (k, x) List.mem_cons_self _ hstops
    have hrest := ih (fun z hmem => hitem z (List.mem_cons_of_mem _ hmem)) (Nat.lt_of_succ_lt_succ hfuel)
    rw [readMembers, readMember_laidOut hfirst]
    simp only [laidOutMembers, List.cons_append]
    rw [skipBlanks_cons (by decide)]
    simp only [List.append_assoc, List.cons_append] at hrest ⊢
    rw [hrest]
    rfl

/-! ### Values -/

theorem readValue_append {blanks : List Char} (h : blanks.all isBlank = true) (depth : Nat)
    (text : List Char) : readValue depth (blanks ++ text) = readValue depth text := by
  unfold readValue
  rw [skipBlanks_append h]

/-- A value's text starts with no blank and no closing bracket. -/
theorem exists_cons_laidOut {x : Json} (hform : x.wellFormed = true) (layout : Layout) (level : Nat) :
    ∃ c chars, laidOut layout level x = c :: chars ∧ isBlank c = false ∧ c ≠ ']' := by
  cases x with
  | null => exact ⟨'n', _, rfl, by decide, by decide⟩
  | bool value => cases value <;> exact ⟨_, _, rfl, by decide, by decide⟩
  | str text => exact ⟨'"', _, rfl, by decide, by decide⟩
  | arr items => cases items <;> exact ⟨'[', _, rfl, by decide, by decide⟩
  | obj members => cases members <;> exact ⟨'{', _, rfl, by decide, by decide⟩
  | num number =>
    obtain ⟨_, hread, -⟩ := Number.read_text hform Numeral.stops_nil
    obtain ⟨c, chars, hcons, -⟩ := Numeral.exists_cons_of_read hread
    rw [List.append_nil] at hcons
    have hc := List.all_eq_true.mp number.all_text c (hcons ▸ List.mem_cons_self)
    refine ⟨c, chars, hcons, Number.isBlank_of_isTextChar hc, ?_⟩
    rintro rfl
    cases hc

theorem readArray_laidOut {item : List Char → Option (Json × List Char)} {x : Json} {xs : List Json}
    {c : Char} {chars : List Char} (hx : laidOut layout (level + 1) x = c :: chars)
    (hblank : isBlank c = false) (hc : c ≠ ']')
    (hitem : ∀ y ∈ x :: xs, ∀ rest, Numeral.Stops rest →
      item (layout.line (level + 1) ++ laidOut layout (level + 1) y ++ rest) = some (y.reread, rest))
    (rest : List Char) :
    readArray item (layout.line (level + 1) ++ laidOut layout (level + 1) x ++
      (laidOutItems layout level xs ++ rest)) = some ((arr (x :: xs)).reread, rest) := by
  have hfuel : xs.length < (layout.line (level + 1) ++ laidOut layout (level + 1) x ++
      (laidOutItems layout level xs ++ rest)).length := by
    have hlength := @length_le_laidOutItems layout level xs
    simp only [List.length_append]
    omega
  have hskip : skipBlanks (layout.line (level + 1) ++ laidOut layout (level + 1) x ++
      (laidOutItems layout level xs ++ rest)) = c :: (chars ++ (laidOutItems layout level xs ++ rest)) := by
    rw [List.append_assoc, skipBlanks_append (layout.line_blank (level + 1)), hx, List.cons_append,
      skipBlanks_cons hblank]
  unfold readArray
  split
  · rename_i hclose
    rw [hskip] at hclose
    exact absurd (List.cons.inj hclose).1 hc
  · rw [readItems_laidOut hitem hfuel]
    rfl

theorem readObject_laidOut {item : List Char → Option (Json × List Char)} {k : String} {x : Json}
    {xs : List (String × Json)} (hsorted : Dict.Sorted ((k, x) :: xs))
    (hitem : ∀ member ∈ (k, x) :: xs, ∀ rest, Numeral.Stops rest →
      item (layout.gap ++ laidOut layout (level + 1) member.2 ++ rest) = some (member.2.reread, rest))
    (rest : List Char) :
    readObject item (layout.line (level + 1) ++ quote k ++ ':' :: layout.gap ++
      laidOut layout (level + 1) x ++ (laidOutMembers layout level xs ++ rest)) =
        some ((obj ((k, x) :: xs)).reread, rest) := by
  have hfuel : xs.length < (layout.line (level + 1) ++ quote k ++ ':' :: layout.gap ++
      laidOut layout (level + 1) x ++ (laidOutMembers layout level xs ++ rest)).length := by
    have hlength := @length_le_laidOutMembers layout level xs
    simp only [List.length_append]
    omega
  have hskip : ∃ chars, skipBlanks (layout.line (level + 1) ++ quote k ++ ':' :: layout.gap ++
      laidOut layout (level + 1) x ++ (laidOutMembers layout level xs ++ rest)) = '"' :: chars := by
    simp only [List.append_assoc, quote, List.cons_append]
    rw [skipBlanks_append (layout.line_blank (level + 1)), skipBlanks_cons (by decide)]
    exact ⟨_, rfl⟩
  obtain ⟨chars, hskip⟩ := hskip
  unfold readObject
  split
  · rename_i hclose
    rw [hskip] at hclose
    exact absurd (List.cons.inj hclose).1 (by decide)
  · rw [readMembers_laidOut hitem hfuel, Option.map_some, reread, rereadMembers_eq_mapValues,
      (hsorted.mapValues reread).ofList_eq]

/-- **A written value is read with its doubles read again**, in either layout and whatever follows it. -/
theorem readValue_laidOut {x : Json} (hform : x.wellFormed = true) {depth : Nat} (hdepth : x.depth ≤ depth)
    (layout : Layout) (level : Nat) {rest : List Char} (hrest : Numeral.Stops rest) :
    readValue depth (laidOut layout level x ++ rest) = some (x.reread, rest) := by
  induction depth using Nat.strongRecOn generalizing x level rest with
  | ind depth ih =>
    cases x with
    | null =>
      rw [readValue, laidOut, List.cons_append, skipBlanks_cons (by decide)]
      rfl
    | bool value =>
      cases value <;>
      · rw [readValue, laidOut, List.cons_append, skipBlanks_cons (by decide)]
        rfl
    | num number =>
      obtain ⟨_, hread, hvalue⟩ := Number.read_text hform hrest
      exact readValue_num hread hvalue depth
    | str text =>
      simp only [readValue, laidOut, quote, List.cons_append, List.append_assoc, List.nil_append]
      rw [skipBlanks_cons (by decide)]
      simp only [readString_flatMap_escapeChar, Option.map_some, String.ofList_toList]
      rfl
    | arr items =>
      obtain ⟨depth, rfl⟩ := Nat.exists_eq_add_one.mpr (Nat.zero_lt_of_lt hdepth)
      cases items with
      | nil =>
        rw [readValue, laidOut, List.cons_append, skipBlanks_cons (by decide)]
        rfl
      | cons y ys =>
        have hforms := (everywhere_arr_iff.mp hform).2
        have hitem : ∀ z ∈ y :: ys, ∀ more, Numeral.Stops more → readValue depth
            (layout.line (level + 1) ++ laidOut layout (level + 1) z ++ more) = some (z.reread, more) := by
          intro z hmem more hmore
          have hz := depthItems_le_iff.mp (Nat.le_of_succ_le_succ hdepth) _ hmem
          rw [List.append_assoc, readValue_append (layout.line_blank (level + 1))]
          exact ih depth (Nat.lt_succ_self depth) (hforms z hmem) hz (level + 1) hmore
        obtain ⟨c, chars, hcons, hblank, hc⟩ :=
          exists_cons_laidOut (hforms y List.mem_cons_self) layout (level + 1)
        rw [readValue, laidOut, List.cons_append, skipBlanks_cons (by decide), List.append_assoc]
        exact readArray_laidOut hcons hblank hc hitem rest
    | obj members =>
      obtain ⟨depth, rfl⟩ := Nat.exists_eq_add_one.mpr (Nat.zero_lt_of_lt hdepth)
      obtain ⟨hsorted, hforms⟩ := wellFormed_obj_iff.mp hform
      cases members with
      | nil =>
        rw [readValue, laidOut, List.cons_append, skipBlanks_cons (by decide)]
        rfl
      | cons member members =>
        obtain ⟨k, y⟩ := member
        have hitem : ∀ z ∈ (k, y) :: members, ∀ more, Numeral.Stops more → readValue depth
            (layout.gap ++ laidOut layout (level + 1) z.2 ++ more) = some (z.2.reread, more) := by
          intro z hmem more hmore
          have hz := depthMembers_le_iff.mp (Nat.le_of_succ_le_succ hdepth) _ hmem
          rw [List.append_assoc, readValue_append layout.gap_blank]
          exact ih depth (Nat.lt_succ_self depth) (hforms z hmem) hz (level + 1) hmore
        rw [readValue, laidOut, List.cons_append, skipBlanks_cons (by decide), List.append_assoc]
        exact readObject_laidOut hsorted hitem rest

theorem parseWithin?_laidOut {x : Json} (hform : x.wellFormed = true) {depth : Nat} (hdepth : x.depth ≤ depth)
    (layout : Layout) (level : Nat) : parseWithin? depth (laidOut layout level x) = some x.reread := by
  have hread := readValue_laidOut hform hdepth layout level Numeral.stops_nil
  rw [List.append_nil] at hread
  rw [parseWithin?, hread]
  rfl

theorem parse?_pretty {x : Json} (hform : x.wellFormed = true) (hdepth : x.depth ≤ depthLimit) :
    parse? (pretty x) = some x.reread := by
  rw [parse?, pretty, String.toList_ofList, prettyChars_eq]
  exact parseWithin?_laidOut hform hdepth .pretty 0

theorem parse?_compact {x : Json} (hform : x.wellFormed = true) (hdepth : x.depth ≤ depthLimit) :
    parse? (compact x) = some x.reread := by
  rw [parse?, compact, String.toList_ofList, compactChars_eq 0]
  exact parseWithin?_laidOut hform hdepth .compact 0

end DocIndex.Json
