import DocIndex.Proofs.Dict
import DocIndex.Proofs.Path.Segments
import DocIndex.Proofs.Text.Digit

/-!
# Paths through a document

A node of a document is reached from the root by edges, each a key of an object or a number of an array's
item (`Leads`). The value that a path names is the node at the end of edges with the path's segments as
their labels, if there is one (`follow_eq_some_iff`), and otherwise some segment leads nowhere
(`follow_eq_none_iff`). So a path names exactly the nodes that it spells, and paths compose
(`resolve_exact`).
-/

namespace DocIndex.Path

/-! ### Nodes -/

/-- What leads from a value to one directly inside it: the key of a member or the number of an item. As the
length of an array, the number is a machine word. -/
inductive Edge where
  /-- To the member of an object with a key. -/
  | member (key : String)
  /-- To the item of an array with a number. -/
  | item (index : Fin Range.unsigned64)

/-- The segment that stands for an edge: the key itself, or the number in decimal digits, without a sign
and without zeros in front. -/
def Edge.label : Edge → String
  | member key => key
  | item index => String.ofList (Text.ofNat index)

/-- An edge leads from a value to one directly inside it. -/
inductive Inside : Json → Edge → Json → Prop where
  /-- A member lies inside its object. -/
  | member {members : List (String × Json)} {key : String} {inner : Json}
      (h : Dict.find? key members = some inner) : Inside (.obj members) (.member key) inner
  /-- An item lies inside its array. -/
  | item {items : List Json} {index : Fin Range.unsigned64} {inner : Json}
      (h : items[index.val]? = some inner) : Inside (.arr items) (.item index) inner

/-- Edges lead, one after another, from a value to a node. -/
inductive Leads : Json → List Edge → Json → Prop where
  /-- No edges lead to the value itself. -/
  | here (value : Json) : Leads value [] value
  /-- The first edge leads inside, the others on from there. -/
  | inside {value inner node : Json} {edge : Edge} {edges : List Edge} :
      Inside value edge inner → Leads inner edges node → Leads value (edge :: edges) node

/-- A segment leads nowhere from a value: an object without such a key; an array for which the segment is no
number of a machine word, or one past its end; any value but an object or an array. -/
def Stops (segment : String) : Json → Prop
  | .obj members => segment ∉ Dict.keys members
  | .arr items => ∀ index, (Edge.item index).label = segment → items.length ≤ index
  | _ => True

/-! ### One segment -/

/-- A segment is a number of an item exactly if it is the decimal digits of a machine word. -/
theorem index?_eq_some_iff {segment : List Char} {i : Nat} :
    index? segment = some i ↔ segment = Text.ofNat i ∧ i < Range.unsigned64 := by
  unfold index?
  split
  · rename_i c rest
    refine ⟨nofun, ?_⟩
    rintro ⟨hzero, -⟩
    exact absurd hzero.symm (Text.ofNat_ne_zero_cons i c rest)
  · rename_i hzero
    constructor
    · intro h
      split at h
      · rename_i n hn
        split at h
        · rename_i hlimit
          obtain rfl := Option.some.inj h
          exact ⟨Text.eq_ofNat_of_natural? hn hzero, hlimit⟩
        · cases h
      · cases h
    · rintro ⟨rfl, hlimit⟩
      simp only [Text.natural?_ofNat]
      exact if_pos hlimit

theorem label_item_eq_iff {index : Fin Range.unsigned64} {segment : String} :
    (Edge.item index).label = segment ↔ index? segment.toList = some index.val := by
  rw [index?_eq_some_iff, Edge.label, ← String.toList_inj, String.toList_ofList]
  constructor
  · intro h
    exact ⟨h.symm, index.isLt⟩
  · rintro ⟨h, -⟩
    exact h.symm

theorem step_eq_some_iff {value inner : Json} {segment : String} :
    step value segment = some inner ↔ ∃ edge, edge.label = segment ∧ Inside value edge inner := by
  constructor
  · intro h
    unfold step at h
    split at h
    · exact ⟨.member segment, rfl, .member h⟩
    · obtain ⟨i, hi, hinner⟩ := Option.bind_eq_some_iff.mp h
      have hlimit := (index?_eq_some_iff.mp hi).2
      exact ⟨.item ⟨i, hlimit⟩, label_item_eq_iff.mpr hi, .item hinner⟩
    · cases h
  · rintro ⟨edge, hlabel, hinside⟩
    cases hinside with
    | member h =>
      cases hlabel
      exact h
    | item h =>
      rw [step, label_item_eq_iff.mp hlabel]
      exact h

theorem step_eq_none_iff {value : Json} {segment : String} :
    step value segment = none ↔ Stops segment value := by
  unfold step
  split
  · rename_i members
    show _ ↔ segment ∉ Dict.keys members
    rw [Dict.mem_keys_iff, Dict.contains, Bool.not_eq_true, Option.isSome_eq_false_iff,
      Option.isNone_iff_eq_none]
  · rename_i items
    rw [Option.bind_eq_none_iff]
    constructor
    · intro h index hlabel
      exact List.getElem?_eq_none_iff.mp (h index (label_item_eq_iff.mp hlabel))
    · intro h i hi
      have hlimit := (index?_eq_some_iff.mp hi).2
      exact List.getElem?_eq_none_iff.mpr (h ⟨i, hlimit⟩ (label_item_eq_iff.mpr hi))
  · rename_i hobject harray
    refine iff_of_true rfl ?_
    unfold Stops
    split
    · exact absurd rfl (hobject _)
    · exact absurd rfl (harray _)
    · trivial

/-! ### All segments -/

theorem follow_eq_some_iff {value node : Json} {segments : List String} :
    follow value segments = some node ↔
      ∃ edges, edges.map Edge.label = segments ∧ Leads value edges node := by
  induction segments generalizing value with
  | nil =>
    constructor
    · intro h
      cases h
      exact ⟨[], rfl, .here _⟩
    · rintro ⟨edges, hlabels, hleads⟩
      obtain rfl := List.map_eq_nil_iff.mp hlabels
      cases hleads
      rfl
  | cons segment segments ih =>
    rw [follow, Option.bind_eq_some_iff]
    constructor
    · rintro ⟨inner, hstep, hfollow⟩
      obtain ⟨edge, rfl, hinside⟩ := step_eq_some_iff.mp hstep
      obtain ⟨edges, rfl, hleads⟩ := ih.mp hfollow
      exact ⟨edge :: edges, rfl, .inside hinside hleads⟩
    · rintro ⟨edges, hlabels, hleads⟩
      obtain ⟨edge, edges, rfl, rfl, hrest⟩ := List.map_eq_cons_iff.mp hlabels
      cases hleads with
      | inside hinside hleads =>
        exact ⟨_, step_eq_some_iff.mpr ⟨edge, rfl, hinside⟩, ih.mpr ⟨edges, hrest, hleads⟩⟩

/-- No value is found exactly if the segments lead to a place from which the next one leads nowhere. -/
theorem follow_eq_none_iff {value : Json} {segments : List String} :
    follow value segments = none ↔ ∃ edges segment rest inner,
      segments = edges.map Edge.label ++ segment :: rest ∧ Leads value edges inner ∧
        Stops segment inner := by
  induction segments generalizing value with
  | nil =>
    refine ⟨nofun, ?_⟩
    rintro ⟨edges, segment, rest, inner, hsegments, -⟩
    exact absurd hsegments.symm (List.append_ne_nil_of_right_ne_nil _ (List.cons_ne_nil _ _))
  | cons segment segments ih =>
    rw [follow, Option.bind_eq_none_iff]
    constructor
    · intro h
      cases hstep : step value segment with
      | none => exact ⟨[], segment, segments, value, rfl, .here _, step_eq_none_iff.mp hstep⟩
      | some inner =>
        obtain ⟨edge, rfl, hinside⟩ := step_eq_some_iff.mp hstep
        obtain ⟨edges, next, rest, stop, rfl, hleads, hstop⟩ := ih.mp (h inner hstep)
        exact ⟨edge :: edges, next, rest, stop, rfl, .inside hinside hleads, hstop⟩
    · rintro ⟨edges, next, rest, stop, hsegments, hleads, hstop⟩ inner hstep
      cases hleads with
      | here =>
        -- the first segment is the one that leads nowhere
        obtain ⟨rfl, -⟩ := List.cons.inj hsegments
        rw [step_eq_none_iff.mpr hstop] at hstep
        cases hstep
      | inside hinside hleads =>
        obtain ⟨rfl, hrest⟩ := List.cons.inj hsegments
        rw [step_eq_some_iff.mpr ⟨_, rfl, hinside⟩] at hstep
        obtain rfl := Option.some.inj hstep
        exact ih.mpr ⟨_, next, rest, stop, hrest, hleads, hstop⟩

theorem follow_append (value : Json) (front segments : List String) :
    follow value (front ++ segments) =
      (follow value front).bind fun inner => follow inner segments := by
  induction front generalizing value with
  | nil => rfl
  | cons segment front ih =>
    rw [List.cons_append, follow, follow, Option.bind_assoc]
    exact congrArg _ (funext fun inner => ih inner)

/-! ### Paths -/

theorem getLast?_label_item_ne (index : Fin Range.unsigned64) :
    (Edge.item index).label.toList.getLast? ≠ some '\\' := by
  intro h
  rw [Edge.label, String.toList_ofList] at h
  exact absurd (Text.isDigit_of_mem_ofNat (List.mem_of_getLast? h)) (by decide)

/-- The labels of edges can be joined to a path if no key but the last label ends in a backslash. -/
theorem separable_labels {edges : List Edge}
    (h : ∀ key, .member key ∈ edges.dropLast → key.toList.getLast? ≠ some '\\') :
    Separable (edges.map Edge.label) := by
  intro segment hmem
  rw [← List.map_dropLast] at hmem
  obtain ⟨edge, hedge, rfl⟩ := List.mem_map.mp hmem
  cases edge with
  | member key => exact h key hedge
  | item index => exact getLast?_label_item_ne index

/-- Two path texts with a point between them have the segments of both. -/
theorem segments_append {front : String} (h : front.toList.getLast? ≠ some '\\') (rest : String) :
    (Path.mk (front ++ "." ++ rest)).segments =
      (Path.mk front).segments ++ (Path.mk rest).segments := by
  have htext : (front ++ "." ++ rest).toList = front.toList ++ '.' :: rest.toList := by
    rw [String.toList_append, String.toList_append, List.append_assoc]
    rfl
  rw [Path.segments, htext, splitSegments_append h, List.map_append]
  rfl

/-- **Resolution is exact and compositional.** Edges from the root of a document to a node, at least one,
make up a path, their labels escaped and joined, that names this node, if no key among them but the last
ends in a backslash. A path names a node only if its segments are the labels of edges to that node, and it
names none exactly if its segments lead to a place from which the next one leads nowhere. And a path text
that does not end in a backslash, followed by a point and another path text, names what the second names in
what the first names. -/
theorem resolve_exact (document : Json) :
    (∀ (edges : List Edge) (node : Json), edges ≠ [] → Leads document edges node →
      (∀ key, .member key ∈ edges.dropLast → key.toList.getLast? ≠ some '\\') →
      resolve (ofSegments (edges.map Edge.label)) document = some node) ∧
    (∀ (path : Path) (node : Json), resolve path document = some node ↔
      ∃ edges, edges.map Edge.label = path.segments ∧ Leads document edges node) ∧
    (∀ path : Path, resolve path document = none ↔ ∃ edges segment rest inner,
      path.segments = edges.map Edge.label ++ segment :: rest ∧ Leads document edges inner ∧
        Stops segment inner) ∧
    ∀ front rest : String, front.toList.getLast? ≠ some '\\' →
      resolve ⟨front ++ "." ++ rest⟩ document = (resolve ⟨front⟩ document).bind (resolve ⟨rest⟩) := by
  refine ⟨?_, fun path node => follow_eq_some_iff, fun path => follow_eq_none_iff, ?_⟩
  · intro edges node hne hleads hkeys
    rw [resolve, segments_ofSegments (mt List.map_eq_nil_iff.mp hne) (separable_labels hkeys)]
    exact follow_eq_some_iff.mpr ⟨edges, rfl, hleads⟩
  · intro front rest h
    rw [resolve, segments_append h, follow_append]
    rfl

/-- A document with a point in one key and a backslash for another. -/
def pointedDocument : Json := .obj [("a.b", .arr [.bool true, .obj [("\\", .null)]])]

/-- The edges to its innermost value. -/
def pointedEdges : List Edge := [.member "a.b", .item ⟨1, by decide⟩, .member "\\"]

/-- The innermost value is found as a whole and in two parts, and a zero in front of a number is in the
way. -/
theorem resolve_pointedDocument :
    resolve ⟨"a\\.b.1.\\"⟩ pointedDocument = some .null ∧
      (resolve ⟨"a\\.b"⟩ pointedDocument).bind (resolve ⟨"1.\\"⟩) = some .null ∧
      resolve ⟨"a\\.b.01"⟩ pointedDocument = none := by
  obtain ⟨hnodes, -, hmissing, happend⟩ := resolve_exact pointedDocument
  have hleads : Leads pointedDocument pointedEdges .null :=
    .inside (.member (if_pos rfl)) (.inside (.item rfl) (.inside (.member (if_pos rfl)) (.here _)))
  have hkeys : ∀ key, .member key ∈ pointedEdges.dropLast → key.toList.getLast? ≠ some '\\' := by
    intro key hmem
    rcases List.mem_cons.mp hmem with heq | hmem
    · obtain rfl := Edge.member.inj heq
      decide
    · cases List.mem_singleton.mp hmem
  have hpath : ofSegments (pointedEdges.map Edge.label) = ⟨"a\\.b.1.\\"⟩ := by decide
  have hnull := hnodes pointedEdges .null (List.cons_ne_nil _ _) hleads hkeys
  rw [hpath] at hnull
  refine ⟨hnull, ?_, ?_⟩
  · rw [← happend "a\\.b" "1.\\" (by decide)]
    exact hnull
  · refine (hmissing _).mpr ⟨[.member "a.b"], "01", [], .arr [.bool true, .obj [("\\", .null)]], by decide,
      .inside (.member (if_pos rfl)) (.here _), ?_⟩
    intro index hlabel
    have hindex : index? "01".toList = none := by decide
    rw [label_item_eq_iff, hindex] at hlabel
    cases hlabel

end DocIndex.Path
