import DocIndex.Path

/-!
# Path texts and their segments

A path text is its segments, escaped and joined (`joinSegments_splitSegments`), and segments that are
escaped and joined are read back if no segment but the last ends in a backslash
(`splitSegments_joinSegments`). The segments of a text are always of that kind, so texts and such lists
correspond (`segments_correspondence`).
-/

namespace DocIndex.Path

/-! ### Segments of a text -/

theorem consChar_ne_cons_nil (c : Char) (segments others : List (List Char)) :
    consChar c segments ≠ [] :: others := by
  obtain ⟨segment, rest, heq⟩ := exists_consChar c segments
  rw [heq]
  exact nofun

/-- Any character but a point that is not the backslash of an escaped point belongs to the first segment. -/
theorem splitSegments_cons {c : Char} {text : List Char} (hpoint : c ≠ '.')
    (hescape : c = '\\' → text.head? ≠ some '.') :
    splitSegments (c :: text) = consChar c (splitSegments text) := by
  rw [splitSegments]
  · rintro rest rfl rfl
    exact hescape rfl rfl
  · exact hpoint

theorem head?_ne_of_forall_ne {c : Char} {text : List Char}
    (h : ∀ rest, c = '\\' → text = '.' :: rest → False) : c = '\\' → text.head? ≠ some '.' := by
  intro hc hhead
  cases text with
  | nil => cases hhead
  | cons d rest =>
    obtain rfl := Option.some.inj hhead
    exact h rest hc rfl

theorem consChar_append (c : Char) {segments : List (List Char)} (h : segments ≠ [])
    (others : List (List Char)) : consChar c (segments ++ others) = consChar c segments ++ others := by
  cases segments with
  | nil => exact absurd rfl h
  | cons segment segments => rfl

theorem getLast?_ne_of_cons {c d : Char} {text : List Char} (h : (c :: text).getLast? ≠ some d) :
    text.getLast? ≠ some d := by
  intro hlast
  rw [List.getLast?_cons, hlast] at h
  exact h rfl

/-- A point after a text that does not end in a backslash ends a segment, whatever follows. -/
theorem splitSegments_append {front : List Char} (h : front.getLast? ≠ some '\\') (text : List Char) :
    splitSegments (front ++ '.' :: text) = splitSegments front ++ splitSegments text := by
  fun_induction splitSegments front with
  | case1 => rfl
  | case2 rest ih =>
    rw [← consChar_append '.' (splitSegments_ne_nil rest),
      ← ih (getLast?_ne_of_cons (getLast?_ne_of_cons h))]
    rfl
  | case3 rest ih =>
    show [] :: splitSegments (rest ++ '.' :: text) = _
    rw [ih (getLast?_ne_of_cons h)]
    rfl
  | case4 c rest hescape hpoint ih =>
    rw [List.cons_append, splitSegments_cons hpoint, ih (getLast?_ne_of_cons h),
      consChar_append c (splitSegments_ne_nil rest)]
    -- only a backslash at the very end of the front could still escape the point
    rintro rfl hhead
    cases rest with
    | nil => exact h rfl
    | cons d rest => exact head?_ne_of_forall_ne hescape rfl hhead

/-! ### Escaped segments -/

theorem escapeSegment_cons (c : Char) (segment : List Char) :
    escapeSegment (c :: segment) = (if c = '.' then ['\\', '.'] else [c]) ++ escapeSegment segment :=
  List.flatMap_cons

theorem head?_escapeSegment_ne (segment : List Char) : (escapeSegment segment).head? ≠ some '.' := by
  cases segment with
  | nil => exact nofun
  | cons c segment =>
    rw [escapeSegment_cons]
    split
    · exact nofun
    · rename_i hpoint
      intro h
      exact hpoint (Option.some.inj h)

theorem getLast?_escapeSegment (segment : List Char) :
    (escapeSegment segment).getLast? = segment.getLast? := by
  rcases List.eq_nil_or_concat segment with rfl | ⟨front, c, rfl⟩
  · rfl
  · rw [List.concat_eq_append, escapeSegment, List.flatMap_append, List.flatMap_singleton, List.getLast?_concat]
    split
    · rename_i hpoint
      rw [hpoint]
      rw [List.getLast?_append]
      rfl
    · exact List.getLast?_concat

/-- An escaped segment is one segment, the one that was escaped. -/
theorem splitSegments_escapeSegment (segment : List Char) :
    splitSegments (escapeSegment segment) = [segment] := by
  induction segment with
  | nil => rfl
  | cons c segment ih =>
    rw [escapeSegment_cons]
    split
    · rename_i hpoint
      rw [hpoint]
      show consChar '.' (splitSegments (escapeSegment segment)) = _
      rw [ih]
      rfl
    · rename_i hpoint
      rw [List.singleton_append, splitSegments_cons hpoint fun _ => head?_escapeSegment_ne segment, ih]
      rfl

theorem joinSegments_cons (segment : List Char) {segments : List (List Char)} (h : segments ≠ []) :
    joinSegments (segment :: segments) = escapeSegment segment ++ '.' :: joinSegments segments := by
  cases segments with
  | nil => exact absurd rfl h
  | cons next segments => rfl

theorem joinSegments_consChar (c : Char) {segments : List (List Char)} (h : segments ≠ []) :
    joinSegments (consChar c segments) =
      (if c = '.' then ['\\', '.'] else [c]) ++ joinSegments segments := by
  cases segments with
  | nil => exact absurd rfl h
  | cons segment segments =>
    cases segments with
    | nil => exact escapeSegment_cons c segment
    | cons next segments =>
      rw [consChar, joinSegments_cons _ (List.cons_ne_nil _ _), escapeSegment_cons, List.append_assoc,
        joinSegments_cons _ (List.cons_ne_nil _ _)]

/-! ### There and back -/

/-- A text is its segments, escaped and joined. -/
theorem joinSegments_splitSegments (text : List Char) : joinSegments (splitSegments text) = text := by
  fun_induction splitSegments text with
  | case1 => rfl
  | case2 rest ih =>
    rw [joinSegments_consChar _ (splitSegments_ne_nil rest), ih]
    rfl
  | case3 rest ih =>
    rw [joinSegments_cons _ (splitSegments_ne_nil rest), ih]
    rfl
  | case4 c rest _ hpoint ih =>
    rw [joinSegments_consChar _ (splitSegments_ne_nil rest), ih, if_neg hpoint]
    rfl

/-- Segments are read back if none but the last ends in a backslash. -/
theorem splitSegments_joinSegments {segments : List (List Char)} (hne : segments ≠ [])
    (h : ∀ segment ∈ segments.dropLast, segment.getLast? ≠ some '\\') :
    splitSegments (joinSegments segments) = segments := by
  induction segments with
  | nil => exact absurd rfl hne
  | cons segment segments ih =>
    cases segments with
    | nil => exact splitSegments_escapeSegment segment
    | cons next segments =>
      rw [List.dropLast_cons_of_ne_nil (List.cons_ne_nil _ _)] at h
      have hlast := h segment List.mem_cons_self
      rw [← getLast?_escapeSegment] at hlast
      rw [joinSegments_cons _ (List.cons_ne_nil _ _), splitSegments_append hlast,
        splitSegments_escapeSegment, ih (List.cons_ne_nil _ _) fun s hs => h s (List.mem_cons_of_mem _ hs)]
      rfl

/-- Where the first of several segments is empty, the text starts with the point after it. -/
theorem head?_of_splitSegments_nil {text : List Char} {segments : List (List Char)}
    (h : splitSegments text = [] :: segments) (hne : segments ≠ []) : text.head? = some '.' := by
  revert h
  fun_cases splitSegments text with
  | case1 =>
    intro h
    exact absurd (List.cons.inj h).2.symm hne
  | case2 | case4 =>
    intro h
    exact absurd h (consChar_ne_cons_nil _ _ _)
  | case3 =>
    intro _
    rfl

theorem mem_dropLast_consChar {c : Char} {segments : List (List Char)} {segment : List Char}
    (h : segment ∈ (consChar c segments).dropLast) :
    segment ∈ segments.dropLast ∨
      ∃ first others, segments = first :: others ∧ others ≠ [] ∧ segment = c :: first := by
  cases segments with
  | nil => cases h
  | cons first others =>
    cases others with
    | nil => cases h
    | cons next others =>
      rcases List.mem_cons.mp h with rfl | hothers
      · exact .inr ⟨first, next :: others, rfl, List.cons_ne_nil _ _, rfl⟩
      · exact .inl (List.mem_cons_of_mem _ hothers)

/-- A character put in front of the segments adds no backslash at the end of one, unless it is a backslash
in front of a point. -/
theorem getLast?_ne_of_consChar {c : Char} {text : List Char} {segment : List Char}
    (hc : c = '\\' → text.head? ≠ some '.')
    (ih : ∀ segment ∈ (splitSegments text).dropLast, segment.getLast? ≠ some '\\')
    (h : segment ∈ (consChar c (splitSegments text)).dropLast) : segment.getLast? ≠ some '\\' := by
  rcases mem_dropLast_consChar h with hmem | ⟨first, others, heq, hne, rfl⟩
  · exact ih segment hmem
  · rw [heq, List.dropLast_cons_of_ne_nil hne] at ih
    have hfirst := ih first List.mem_cons_self
    rw [List.getLast?_cons]
    cases hlast : first.getLast? with
    | some d => rwa [hlast] at hfirst
    | none =>
      -- an empty first segment ends at a point, which a backslash in front of it would escape
      obtain rfl := List.getLast?_eq_none_iff.mp hlast
      intro hbackslash
      exact hc (Option.some.inj hbackslash) (head?_of_splitSegments_nil heq hne)

/-- No segment of a text but the last ends in a backslash. -/
theorem getLast?_ne_of_mem_splitSegments (text : List Char) :
    ∀ segment ∈ (splitSegments text).dropLast, segment.getLast? ≠ some '\\' := by
  fun_induction splitSegments text with
  | case1 => exact nofun
  | case2 rest ih => exact fun segment => getLast?_ne_of_consChar (fun h => absurd h (by decide)) ih
  | case3 rest ih =>
    rw [List.dropLast_cons_of_ne_nil (splitSegments_ne_nil rest)]
    intro segment hmem
    rcases List.mem_cons.mp hmem with rfl | hrest
    · exact nofun
    · exact ih segment hrest
  | case4 c rest hescape hpoint ih =>
    exact fun segment => getLast?_ne_of_consChar (head?_ne_of_forall_ne hescape) ih

/-! ### Paths -/

/-- No segment but the last ends in a backslash, which would escape the point after it. -/
def Separable (segments : List String) : Prop :=
  ∀ segment ∈ segments.dropLast, segment.toList.getLast? ≠ some '\\'

instance (segments : List String) : Decidable (Separable segments) :=
  inferInstanceAs (Decidable (∀ segment ∈ segments.dropLast, segment.toList.getLast? ≠ some '\\'))

theorem map_toList_segments (path : Path) :
    path.segments.map String.toList = splitSegments path.raw.toList := by
  rw [segments, List.map_map]
  exact List.map_id'' (fun _ => String.toList_ofList) _

theorem segments_ne_nil (path : Path) : path.segments ≠ [] := by
  rw [segments, ne_eq, List.map_eq_nil_iff]
  exact splitSegments_ne_nil _

theorem separable_segments (path : Path) : Separable path.segments := by
  intro segment hmem
  refine getLast?_ne_of_mem_splitSegments path.raw.toList segment.toList ?_
  rw [← map_toList_segments, ← List.map_dropLast]
  exact List.mem_map_of_mem hmem

theorem ofSegments_segments (path : Path) : ofSegments path.segments = path := by
  rw [ofSegments, map_toList_segments, joinSegments_splitSegments, String.ofList_toList]

theorem segments_ofSegments {segments : List String} (hne : segments ≠ []) (h : Separable segments) :
    (ofSegments segments).segments = segments := by
  have hread : splitSegments (joinSegments (segments.map String.toList)) = segments.map String.toList := by
    refine splitSegments_joinSegments (mt List.map_eq_nil_iff.mp hne) ?_
    rw [← List.map_dropLast]
    intro segment hmem
    obtain ⟨text, htext, rfl⟩ := List.mem_map.mp hmem
    exact h text htext
  rw [Path.segments, ofSegments, String.toList_ofList, hread, List.map_map]
  exact List.map_id'' (fun _ => String.ofList_toList) _

/-- **Path texts and lists of segments correspond.** A path is its segments with their points escaped,
joined by points, so different paths have different segments. A list of texts is read back from the path
made of it exactly if it is not empty and none of them but the last ends in a backslash, and the lists of
that form are those that paths have as their segments. -/
theorem segments_correspondence :
    (∀ path : Path, ofSegments path.segments = path) ∧
    (∀ path other : Path, path.segments = other.segments ↔ path = other) ∧
    (∀ segments, (ofSegments segments).segments = segments ↔ segments ≠ [] ∧ Separable segments) ∧
    ∀ segments, (∃ path : Path, path.segments = segments) ↔ segments ≠ [] ∧ Separable segments := by
  have hform : ∀ path : Path, path.segments ≠ [] ∧ Separable path.segments := fun path =>
    ⟨segments_ne_nil path, separable_segments path⟩
  refine ⟨ofSegments_segments, fun path other => ?_, fun segments => ?_, fun segments => ?_⟩
  · constructor
    · intro h
      rw [← ofSegments_segments path, h, ofSegments_segments]
    · rintro rfl
      rfl
  · constructor
    · intro h
      rw [← h]
      exact hform _
    · rintro ⟨hne, hseparable⟩
      exact segments_ofSegments hne hseparable
  · constructor
    · rintro ⟨path, rfl⟩
      exact hform path
    · rintro ⟨hne, hseparable⟩
      exact ⟨ofSegments segments, segments_ofSegments hne hseparable⟩

example : (ofSegments ["a.b", "", "\\.c\\"]).raw = "a\\.b..\\\\.c\\" := by decide

end DocIndex.Path
