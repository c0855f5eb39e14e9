import DocIndex.Design.Definition
import DocIndex.Proofs.Dict

/-!
# Views, read back

The strict reader of patterns, keys and views reads back what the writer makes of them, wherever in a
view they stand. All that is lost is a reduce that is an explicit `null`, which reads as none.
-/

namespace DocIndex

/-! ### Looking a member up among what is written -/

theorem find?_flagMember (key name : String) (on : Bool) :
    Dict.find? key (flagMember name on) = if name = key ∧ on = true then some (.bool true) else none := by
  cases on <;> simp [flagMember, Dict.find?]

theorem find?_optionalMember (key name : String) (value : Option Json) :
    Dict.find? key (optionalMember name value) = if name = key then value else none := by
  cases value <;> simp [optionalMember, Dict.find?]

theorem eq_of_mem_flagMember {name : String} {on : Bool} {member : String × Json}
    (h : member ∈ flagMember name on) : member.1 = name := by
  cases on with
  | false => cases h
  | true =>
    obtain rfl := List.mem_singleton.mp h
    rfl

theorem eq_of_mem_optionalMember {name : String} {value : Option Json} {member : String × Json}
    (h : member ∈ optionalMember name value) : member.1 = name := by
  cases value with
  | none => cases h
  | some value =>
    obtain rfl := List.mem_singleton.mp h
    rfl

theorem firstUnknown_eq_none {known : List String} {members : List (String × Json)}
    (h : ∀ member ∈ members, member.1 ∈ known) : firstUnknown known members = none := by
  rw [firstUnknown, List.find?_eq_none]
  intro key hkey
  obtain ⟨member, hmem, rfl⟩ := List.mem_map.mp hkey
  simpa using h member hmem

/-! ### Descriptors -/

namespace Descriptor

variable (d : Descriptor) (inner : Json)

theorem find?_access : Dict.find? "access" (d.members inner) = some inner := by
  simp [members, Dict.find?]

theorem find?_flag (flag : Flag) (on : Bool)
    (h : on = match flag with
      | .splay => d.splay | .emit => d.emit | .invert => d.invert | .flatten => d.flatten) :
    Dict.find? flag.name (d.members inner) = if on = true then some (.bool true) else .none := by
  subst h
  cases flag <;>
    simp [members, Flag.name, Dict.find?, Dict.find?_append, find?_flagMember, find?_optionalMember]

theorem find?_equals : Dict.find? "equals" (d.members inner) = d.equals := by
  simp [members, Dict.find?, Dict.find?_append, find?_flagMember, find?_optionalMember]

theorem find?_transform : Dict.find? "transform" (d.members inner) =
    d.transform.map fun transform => .str transform.name := by
  simp [members, Dict.find?, Dict.find?_append, find?_flagMember, find?_optionalMember]

theorem mem_fields_of_mem_members {member : String × Json} (h : member ∈ d.members inner) :
    member.1 ∈ Pattern.fields := by
  simp only [members, List.mem_cons, List.mem_append] at h
  rcases h with rfl | ((((hemit | hequals) | hflatten) | hinvert) | hsplay) | htransform
  · exact (by decide : "access" ∈ Pattern.fields)
  · exact eq_of_mem_flagMember hemit ▸ by decide
  · exact eq_of_mem_optionalMember hequals ▸ by decide
  · exact eq_of_mem_flagMember hflatten ▸ by decide
  · exact eq_of_mem_flagMember hinvert ▸ by decide
  · exact eq_of_mem_flagMember hsplay ▸ by decide
  · exact eq_of_mem_optionalMember htransform ▸ by decide

end Descriptor

/-! ### Patterns and keys -/

namespace Pattern

theorem decodeFlag_eq_ok {location : Location} {members : List (String × Json)} {flag : Flag} {on : Bool}
    (h : Dict.find? flag.name members = if on = true then some (.bool true) else none) :
    decodeFlag location members flag = .ok on := by
  rw [decodeFlag, h]
  cases on <;> rfl

theorem decodeTransform_toJson (location : Location) (transform : Option Transform) :
    decodeTransform location (transform.map fun transform => .str transform.name) = .ok transform := by
  cases transform with
  | none => rfl
  | some transform => simp [decodeTransform, Transform.ofName?_name]

theorem decodeDescriptor_members (location : Location) (d : Descriptor) (inner : Json) :
    decodeDescriptor location (d.members inner) = .ok d := by
  simp only [decodeDescriptor, d.find?_transform, d.find?_equals, decodeTransform_toJson, bind, Except.bind]
  rw [decodeFlag_eq_ok (d.find?_flag inner .splay d.splay rfl),
    decodeFlag_eq_ok (d.find?_flag inner .emit d.emit rfl),
    decodeFlag_eq_ok (d.find?_flag inner .invert d.invert rfl),
    decodeFlag_eq_ok (d.find?_flag inner .flatten d.flatten rfl)]
  rfl

/-- A written pattern is read back, wherever it stands. -/
theorem decodeAt_toJson (location : Location) (pattern : Pattern) :
    decodeAt location pattern.toJson = .ok pattern := by
  induction pattern generalizing location with
  | path p => rfl
  | access inner d ih =>
    rw [toJson, decodeAt, decodeInner_eq, d.find?_access, Option.map_some, ih, decodeAccess,
      firstUnknown_eq_none fun _ => d.mem_fields_of_mem_members inner.toJson]
    simp only [bind, Except.bind, decodeDescriptor_members]
    rfl

/-- No pattern is written as an array or as `null`. -/
theorem toJson_cases (pattern : Pattern) :
    (∃ raw, pattern.toJson = .str raw) ∨ ∃ members, pattern.toJson = .obj members := by
  cases pattern with
  | path p => exact .inl ⟨p.raw, rfl⟩
  | access inner d => exact .inr ⟨d.members inner.toJson, rfl⟩

end Pattern

namespace KeyPattern

theorem decodeParts_toJson (index : Nat) (parts : List Pattern) :
    decodeParts index (parts.map Pattern.toJson) = .ok parts := by
  induction parts generalizing index with
  | nil => rfl
  | cons part parts ih =>
    rw [List.map_cons, decodeParts, Pattern.decodeAt_toJson, ih]
    rfl

theorem ofJson_toJson (key : KeyPattern) : ofJson key.toJson = .ok key := by
  cases key with
  | single pattern =>
    have hread := Pattern.decodeAt_toJson (.ofRoot .key) pattern
    rw [toJson]
    rcases pattern.toJson_cases with ⟨raw, hraw⟩ | ⟨members, hmembers⟩
    · rw [hraw] at hread ⊢
      rw [ofJson, hread]
      · rfl
      · exact fun _ h => nomatch h
    · rw [hmembers] at hread ⊢
      rw [ofJson, hread]
      · rfl
      · exact fun _ h => nomatch h
  | composite parts =>
    rw [toJson, ofJson, decodeParts_toJson]
    rfl

end KeyPattern

/-! ### Views -/

namespace View

theorem decodeValue_toJson (value : Option Pattern) :
    decodeValue (value.map Pattern.toJson) = .ok value := by
  cases value with
  | none => rfl
  | some pattern =>
    have hread := Pattern.decodeAt_toJson (.ofRoot .value) pattern
    rw [Option.map_some]
    rcases pattern.toJson_cases with ⟨raw, hraw⟩ | ⟨members, hmembers⟩
    · rw [hraw] at hread ⊢
      simp [decodeValue, hread, Except.map]
    · rw [hmembers] at hread ⊢
      simp [decodeValue, hread, Except.map]

/-- The patterns of a view are read back, and there is no reduce among them. -/
theorem ofJson_patternsToJson (view : View) :
    View.ofJson view.patternsToJson = .ok { view with reduce := none } := by
  have hknown : firstUnknown fields
      (("key", view.key.toJson) :: optionalMember "value" (view.value.map Pattern.toJson)) = none :=
    firstUnknown_eq_none fun member hmem => by
      rcases List.mem_cons.mp hmem with rfl | hvalue
      · exact (by decide : "key" ∈ fields)
      · exact eq_of_mem_optionalMember hvalue ▸ by decide
  simp only [patternsToJson, View.ofJson, hknown]
  simp [Dict.find?, find?_optionalMember, decodeValue_toJson, KeyPattern.ofJson_toJson, bind, Except.bind,
    decodeReduce]
  rfl

/-- A stored view is read back, but for a reduce that is `null`. -/
theorem ofDefinition_toDefinition (view : View) :
    ofDefinition view.toDefinition = .ok { view with reduce := decodeReduce view.reduce } := by
  have hmap : Dict.find? "map" (("map", view.patternsToJson) :: optionalMember "reduce" view.reduce) =
      some view.patternsToJson := by simp [Dict.find?]
  have hreduce : Dict.find? "reduce" (("map", view.patternsToJson) :: optionalMember "reduce" view.reduce) =
      view.reduce := by simp [Dict.find?, find?_optionalMember]
  rw [toDefinition, ofDefinition, hmap, hreduce]
  simp only [ofMap, ofJson_patternsToJson]

theorem decodeReduce_eq_self {reduce : Option Json} (h : reduce ≠ some .null) :
    decodeReduce reduce = reduce := by
  cases reduce with
  | none => rfl
  | some value =>
    cases value with
    | null => exact absurd rfl h
    | _ => rfl

end View

end DocIndex
