import DocIndex.Proofs.Json.Everywhere
import DocIndex.Row.Codec

/-!
# Well-formed rows

What a path finds is a part of the document, a transform gives strings and arrays of strings, and an annotation
takes arrays apart at most. So a view gives well-formed rows on a well-formed document
(`View.wellFormed_rows`), whatever its patterns are.
-/

namespace DocIndex

open Json (wellFormed_arr_iff wellFormed_obj_iff)

/-! ### Paths -/

namespace Path

theorem wellFormed_step {value inner : Json} (h : value.wellFormed = true) {segment : String}
    (hstep : step value segment = some inner) : inner.wellFormed = true := by
  unfold step at hstep
  split at hstep
  · exact (wellFormed_obj_iff.mp h).2 (segment, inner) (Dict.mem_of_find? hstep)
  · obtain ⟨i, -, hitem⟩ := Option.bind_eq_some_iff.mp hstep
    exact wellFormed_arr_iff.mp h inner (List.mem_of_getElem? hitem)
  · cases hstep

theorem wellFormed_follow {value inner : Json} (h : value.wellFormed = true) {segments : List String}
    (hfollow : follow value segments = some inner) : inner.wellFormed = true := by
  induction segments generalizing value with
  | nil =>
    obtain rfl := Option.some.inj hfollow
    exact h
  | cons segment segments ih =>
    obtain ⟨next, hstep, hrest⟩ := Option.bind_eq_some_iff.mp hfollow
    exact ih (wellFormed_step h hstep) hrest

end Path

/-! ### Interpreted values -/

theorem Json.wellFormed_strings (texts : List String) : (Json.strings texts).wellFormed = true := by
  refine wellFormed_arr_iff.mpr fun x hmem => ?_
  obtain ⟨text, -, rfl⟩ := List.mem_map.mp hmem
  rfl

theorem Timestamp.wellFormed_component (t : Timestamp) (options : Options) (transform : Transform) :
    (t.component options transform).wellFormed = true := by
  cases transform with
  | date => exact Json.wellFormed_strings t.date
  | yearMonth => exact Json.wellFormed_strings [t.year, t.month]
  | time => exact Json.wellFormed_strings t.time
  | datetime => exact Json.wellFormed_strings t.datetime
  | _ => rfl

namespace Transform

theorem wellFormed_of_wordsOf? {value answer : Json} (h : wordsOf? value = some answer) :
    answer.wellFormed = true := by
  unfold wordsOf? at h
  split at h
  · split at h
    · cases h
    · obtain rfl := Option.some.inj h
      exact Json.wellFormed_strings _
  · cases h

theorem wellFormed_of_onValue? {transform : Transform} {options : Options} {value answer : Json}
    (h : transform.onValue? options value = some answer) : answer.wellFormed = true := by
  unfold onValue? at h
  split at h
  · obtain ⟨timestamp, -, rfl⟩ := Option.map_eq_some_iff.mp h
    exact timestamp.wellFormed_component options transform
  · exact wellFormed_of_wordsOf? h

theorem wellFormed_apply {transform : Transform} {options : Options} {input : Interpreted}
    (h : input.payload.wellFormed = true) :
    (transform.apply options input).payload.wellFormed = true := by
  unfold apply
  split
  · exact h
  · split
    · exact wellFormed_of_onValue? ‹_›
    · rfl

end Transform

namespace Descriptor

variable {d : Descriptor} {options : Options}

theorem wellFormed_transformed {input : Interpreted} (h : input.payload.wellFormed = true) :
    (d.transformed options input).payload.wellFormed = true := by
  unfold transformed
  split
  · exact Transform.wellFormed_apply h
  · cases input <;> exact h

/-- An annotation keeps the value, but for an array that is splayed, which it may empty. -/
theorem payload_annotate (d : Descriptor) (value : Interpreted) :
    (d.annotate value).payload = value.payload ∨ (d.annotate value).payload = .arr [] := by
  unfold annotate
  split
  · exact .inl rfl
  split
  · unfold splayed
    split
    · exact .inl rfl
    · exact .inr rfl
  split
  · unfold flattened
    split <;> exact .inl rfl
  · exact .inl rfl

theorem wellFormed_apply {input : Interpreted} (h : input.payload.wellFormed = true) :
    (d.apply options input).payload.wellFormed = true := by
  unfold apply
  split
  · exact h
  · rcases d.payload_annotate (d.transformed options input) with heq | heq
    · rw [heq]
      exact wellFormed_transformed h
    · rw [heq]
      rfl

end Descriptor

theorem Pattern.wellFormed_interpret (options : Options) {document : Json} (h : document.wellFormed = true)
    (pattern : Pattern) : (pattern.interpret options document).payload.wellFormed = true := by
  induction pattern with
  | path p =>
    rw [interpret]
    cases hfound : p.resolve document with
    | none => rfl
    | some value => exact Path.wellFormed_follow h hfound
  | access inner d ih => exact Descriptor.wellFormed_apply ih

/-! ### Rows -/

namespace InterpretedKey

theorem wellFormed_of_mem_choices {part : Interpreted} (h : part.payload.wellFormed = true)
    {components : List Json} (hmem : components ∈ choices part) :
    ∀ x ∈ components, x.wellFormed = true := by
  intro x hx
  cases part with
  | fanout items =>
    obtain ⟨item, hitem, rfl⟩ := List.mem_map.mp hmem
    obtain rfl := List.mem_singleton.mp hx
    exact wellFormed_arr_iff.mp h x hitem
  | flattenable items =>
    obtain rfl := List.mem_singleton.mp hmem
    exact wellFormed_arr_iff.mp h x hx
  | guard value passes =>
    obtain rfl := List.mem_singleton.mp hmem
    cases hx
  | _ =>
    obtain rfl := List.mem_singleton.mp hmem
    obtain rfl := List.mem_singleton.mp hx
    exact h

theorem wellFormed_foldl_extend {parts : List Interpreted}
    (h : ∀ part ∈ parts, part.payload.wellFormed = true) {keys : List (List Json)}
    (hkeys : ∀ key ∈ keys, ∀ x ∈ key, x.wellFormed = true) :
    ∀ key ∈ parts.foldl extend keys, ∀ x ∈ key, x.wellFormed = true := by
  induction parts generalizing keys with
  | nil => exact hkeys
  | cons part parts ih =>
    rw [List.forall_mem_cons] at h
    refine ih h.2 fun key hmem x hx => ?_
    obtain ⟨front, hfront, hkey⟩ := List.mem_flatMap.mp hmem
    obtain ⟨components, hcomponents, rfl⟩ := List.mem_map.mp hkey
    rcases List.mem_append.mp hx with hx | hx
    · exact hkeys front hfront x hx
    · exact wellFormed_of_mem_choices h.1 hcomponents x hx

theorem wellFormed_singleKeys {part : Interpreted} (h : part.payload.wellFormed = true) :
    ∀ key ∈ singleKeys part, key.wellFormed = true := by
  intro key hmem
  unfold singleKeys at hmem
  split at hmem
  · exact wellFormed_arr_iff.mp h key hmem
  · split at hmem
    · obtain rfl := List.mem_singleton.mp hmem
      exact h
    · cases hmem
  · obtain rfl := List.mem_singleton.mp hmem
    exact h

theorem wellFormed_compositeKeys {parts : List Interpreted}
    (h : ∀ part ∈ parts, part.payload.wellFormed = true) :
    ∀ key ∈ compositeKeys parts, key.wellFormed = true := by
  intro key hmem
  unfold compositeKeys at hmem
  split at hmem
  · cases hmem
  · obtain ⟨components, hcomponents, rfl⟩ := List.mem_map.mp hmem
    have hempty : ∀ key ∈ [([] : List Json)], ∀ x ∈ key, x.wellFormed = true := by simp
    exact wellFormed_arr_iff.mpr (wellFormed_foldl_extend h hempty components hcomponents)

end InterpretedKey

theorem KeyPattern.wellFormed_keys (options : Options) {document : Json} (h : document.wellFormed = true)
    (pattern : KeyPattern) : ∀ key ∈ (pattern.interpret options document).keys, key.wellFormed = true := by
  cases pattern with
  | single pattern => exact InterpretedKey.wellFormed_singleKeys (pattern.wellFormed_interpret options h)
  | composite parts =>
    refine InterpretedKey.wellFormed_compositeKeys fun part hmem => ?_
    obtain ⟨pattern, -, rfl⟩ := List.mem_map.mp hmem
    exact pattern.wellFormed_interpret options h

theorem wellFormed_rowValues {value : Option Interpreted}
    (h : ∀ outcome ∈ value, outcome.payload.wellFormed = true) :
    ∀ x ∈ rowValues value, x.wellFormed = true := by
  intro x hmem
  unfold rowValues at hmem
  split at hmem
  · obtain rfl := List.mem_singleton.mp hmem
    rfl
  · exact wellFormed_arr_iff.mp (h _ rfl) x hmem
  · obtain rfl := List.mem_singleton.mp hmem
    exact h _ rfl

theorem Row.wellFormed_toJson {row : Row} (hkey : row.key.wellFormed = true)
    (hvalue : row.value.wellFormed = true) : row.toJson.wellFormed = true := by
  have hsorted : Dict.Sorted [("key", row.key), ("value", row.value)] :=
    List.pairwise_pair.mpr (show precedes "key".toList "value".toList = true by decide)
  exact wellFormed_obj_iff.mpr ⟨hsorted, by simpa using ⟨hkey, hvalue⟩⟩

/-- A view gives well-formed rows on a well-formed document. -/
theorem View.wellFormed_rows (view : View) (options : Options) {document : Json}
    (h : document.wellFormed = true) : ∀ row ∈ view.rows options document, row.toJson.wellFormed = true := by
  intro row hmem
  obtain ⟨key, hkey, hrow⟩ := List.mem_flatMap.mp hmem
  obtain ⟨value, hvalue, rfl⟩ := List.mem_map.mp hrow
  refine Row.wellFormed_toJson (view.key.wellFormed_keys options h key hkey)
    (wellFormed_rowValues (fun outcome houtcome => ?_) value hvalue)
  obtain ⟨pattern, -, rfl⟩ := Option.map_eq_some_iff.mp houtcome
  exact pattern.wellFormed_interpret options h

end DocIndex
