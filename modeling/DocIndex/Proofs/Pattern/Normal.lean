import DocIndex.Proofs.Design.WellFormed
import DocIndex.Proofs.Pattern.Decode

/-!
# Views, written back

Writing a view that was read gives the value it was read from without the members that only spell out a
default (`View.normal`): nothing else is lost and nothing added (`View.toJson_of_ofJson`). Together with
the reading of what was written this makes the JSON form of views a faithful codec
(`View.codec_faithful`).
-/

namespace DocIndex

/-! ### Normal forms -/

namespace Pattern

/-- The member names of the switches. -/
def switches : List String := [Flag.splay, .emit, .invert, .flatten].map Flag.name

/-- Whether a member of an access object only spells out a default: a transform that is `null`, or a
switch that is `null` or off. -/
def isDefault (name : String) : Json → Bool
  | .null => name == "transform" || switches.contains name
  | .bool false => switches.contains name
  | _ => false

mutual

/-- A pattern without the members that spell out a default, at any depth. -/
def normal : Json → Json
  | .obj members => .obj (normalMembers members)
  | .null => .null
  | .bool value => .bool value
  | .num number => .num number
  | .str text => .str text
  | .arr items => .arr items
termination_by structural value => value

/-- The members of an access object that say something, the inner pattern among them in its turn. -/
def normalMembers : List (String × Json) → List (String × Json)
  | [] => []
  | (name, value) :: members =>
    if isDefault name value then normalMembers members
    else (name, if name = "access" then normal value else value) :: normalMembers members
termination_by structural members => members

end

/-- What is left of a member of an access object. -/
def normalMember (name : String) (value : Json) : Option Json :=
  if isDefault name value then none else some (if name = "access" then normal value else value)

theorem normalMembers_eq (members : List (String × Json)) :
    normalMembers members = Dict.filterMap normalMember members := by
  induction members with
  | nil => rfl
  | cons member members ih =>
    obtain ⟨name, value⟩ := member
    rw [normalMembers, ih]
    by_cases h : isDefault name value = true <;> simp [Dict.filterMap, normalMember, h]

end Pattern

/-- A key without the members that spell out a default. -/
def KeyPattern.normal : Json → Json
  | .arr items => .arr (items.map Pattern.normal)
  | value => Pattern.normal value

namespace View

/-- What is left of a member of a view: a value or a reduce that is `null` says nothing. -/
def normalMember (name : String) (value : Json) : Option Json :=
  if (name == "value" || name == "reduce") && value.isNull then none
  else if name = "key" then some (KeyPattern.normal value)
  else if name = "value" then some (Pattern.normal value)
  else some value

/-- A view without the members that spell out a default. -/
def normal : Json → Json
  | .obj members => .obj (Dict.filterMap normalMember members)
  | value => value

end View

/-! ### Access objects -/

namespace Pattern

variable {location : Location}

/-- The inner pattern and the tested value are kept whatever they are. -/
theorem normalMember_of_notMem {name : String} (h : name ∉ "transform" :: switches) (value : Json) :
    normalMember name value = some (if name = "access" then normal value else value) := by
  rw [List.mem_cons, not_or] at h
  have hkept : isDefault name value = false := by
    cases value with
    | null => simpa [isDefault] using h
    | bool on => cases on <;> simp [isDefault, h.2]
    | _ => rfl
  rw [normalMember, hkept, if_neg Bool.false_ne_true]

/-- A switch is written as what its member leaves. -/
theorem find?_flag_of_decodeFlag {members : List (String × Json)} {flag : Flag} {on : Bool}
    (h : decodeFlag location members flag = .ok on) :
    (Dict.find? flag.name members).bind (normalMember flag.name) =
      if on = true then some (.bool true) else none := by
  rcases decodeFlag_eq_ok_iff.mp h with ⟨hnone | hnull, rfl⟩ | hon
  · rw [hnone]
    rfl
  · rw [hnull]
    cases flag <;> rfl
  · rw [hon]
    cases flag <;> cases on <;> rfl

theorem find?_transform_of_decodeTransform {members : List (String × Json)} {transform : Option Transform}
    (h : decodeTransform location (Dict.find? "transform" members) = .ok transform) :
    (Dict.find? "transform" members).bind (normalMember "transform") =
      transform.map fun transform => .str transform.name := by
  rcases decodeTransform_eq_ok_iff.mp h with ⟨hnone | hnull, rfl⟩ | ⟨t, ht, rfl⟩
  · rw [hnone]
    rfl
  · rw [hnull]
    rfl
  · rw [ht]
    rfl

/-- What is written of a descriptor that was read are the members that say something. -/
theorem members_of_decodeDescriptor {members : List (String × Json)} {value inner : Json}
    {d : Descriptor} (hsorted : Dict.Sorted members) (hknown : firstUnknown fields members = none)
    (haccess : Dict.find? "access" members = some value) (hinner : inner = normal value)
    (hd : decodeDescriptor location members = .ok d) :
    d.members inner = normalMembers members := by
  obtain ⟨htransform, hsplay, hemit, hequals, hinvert, hflatten⟩ := decodeDescriptor_eq_ok_iff.mp hd
  have hwritten : Dict.Sorted (d.members inner) := by
    rw [d.members_eq_present]
    exact sorted_present (by decide) _
  rw [normalMembers_eq]
  refine hwritten.ext (hsorted.filterMap _) fun key => ?_
  rw [Dict.find?_filterMap hsorted]
  by_cases hkey : key ∈ fields
  · -- every member that an access object may have
    simp only [fields, List.mem_cons, List.not_mem_nil, or_false] at hkey
    rcases hkey with rfl | rfl | rfl | rfl | rfl | rfl | rfl
    · rw [d.find?_access, haccess, hinner, Option.bind_some, normalMember_of_notMem (by decide)]
      rfl
    · rw [d.find?_transform]
      exact (find?_transform_of_decodeTransform htransform).symm
    · exact (d.find?_flag inner .splay d.splay rfl).trans (find?_flag_of_decodeFlag hsplay).symm
    · exact (d.find?_flag inner .emit d.emit rfl).trans (find?_flag_of_decodeFlag hemit).symm
    · rw [d.find?_equals, hequals]
      cases d.equals with
      | none => rfl
      | some tested =>
        rw [Option.bind_some, normalMember_of_notMem (by decide)]
        rfl
    · exact (d.find?_flag inner .invert d.invert rfl).trans (find?_flag_of_decodeFlag hinvert).symm
    · exact (d.find?_flag inner .flatten d.flatten rfl).trans (find?_flag_of_decodeFlag hflatten).symm
  · rw [find?_of_firstUnknown hknown hkey, Option.bind_none]
    refine Dict.find?_eq_none fun member hmem heq => hkey ?_
    exact heq ▸ d.mem_fields_of_mem_members inner hmem

/-! ### Patterns, keys and views -/

/-- A pattern that was read is written in its normal form. -/
theorem toJson_of_decodeAt {json : Json} (hform : json.wellFormed = true) {pattern : Pattern}
    (h : decodeAt location json = .ok pattern) : pattern.toJson = normal json := by
  induction pattern generalizing location json with
  | path p =>
    rcases decodeAt_eq_ok_iff.mp h with ⟨raw, rfl, hpath⟩ | ⟨_, _, _, _, -, -, -, -, -, hpath⟩
    · obtain rfl := Pattern.path.inj hpath
      rfl
    · cases hpath
  | access inner d ih =>
    rcases decodeAt_eq_ok_iff.mp h with
      ⟨_, -, hpattern⟩ | ⟨members, value, _, _, rfl, hknown, haccess, hinner, hd, hpattern⟩
    · cases hpattern
    · obtain ⟨rfl, rfl⟩ := Pattern.access.inj hpattern
      have hvalue := ih (wellFormed_of_find? hform haccess) hinner
      rw [toJson, normal, members_of_decodeDescriptor (Json.wellFormed_obj_iff.mp hform).1 hknown haccess
        hvalue hd]

end Pattern

namespace KeyPattern

theorem toJson_of_decodeParts {items : List Json} (hform : ∀ item ∈ items, item.wellFormed = true)
    {index : Nat} {parts : List Pattern} (h : decodeParts index items = .ok parts) :
    parts.map Pattern.toJson = items.map Pattern.normal := by
  induction items generalizing index parts with
  | nil =>
    obtain rfl := decodeParts_eq_ok_nil_iff.mp h
    rfl
  | cons item items ih =>
    obtain ⟨part, rest, hpart, hrest, rfl⟩ := decodeParts_eq_ok_cons_iff.mp h
    have hfirst := Pattern.toJson_of_decodeAt (hform item List.mem_cons_self) hpart
    have hothers := ih (fun other hmem => hform other (List.mem_cons_of_mem _ hmem)) hrest
    rw [List.map_cons, List.map_cons, hfirst, hothers]

theorem toJson_of_ofJson {json : Json} (hform : json.wellFormed = true) {key : KeyPattern}
    (h : KeyPattern.ofJson json = .ok key) : key.toJson = normal json := by
  rcases ofJson_eq_ok_iff.mp h with ⟨items, parts, rfl, hparts, rfl⟩ | ⟨pattern, hpattern, rfl⟩
  · have hitems := (Json.everywhere_arr_iff.mp hform).2
    rw [toJson, normal, toJson_of_decodeParts hitems hparts]
  · have hwritten := Pattern.toJson_of_decodeAt hform hpattern
    cases json with
    | arr items => simp [Pattern.decodeAt] at hpattern
    | _ => exact hwritten

end KeyPattern

namespace View

theorem toJson_eq_present (view : View) : view.toJson = .obj (present ["key", "reduce", "value"]
    [some view.key.toJson, view.reduce, view.value.map Pattern.toJson]) := by
  simp [toJson, present, optionalMember]

theorem map_toJson_of_decodeValue {json : Option Json} (hform : json.all Json.wellFormed = true)
    {value : Option Pattern} (h : decodeValue json = .ok value) :
    value.map Pattern.toJson = json.bind (normalMember "value") := by
  rcases decodeValue_eq_ok_iff.mp h with ⟨rfl | rfl, rfl⟩ | ⟨x, pattern, rfl, hnull, hpattern, rfl⟩
  · rfl
  · rfl
  · rw [Option.map_some, Pattern.toJson_of_decodeAt hform hpattern, Option.bind_some]
    cases x with
    | null => exact absurd rfl hnull
    | _ => rfl

theorem decodeReduce_eq_bind (reduce : Option Json) :
    decodeReduce reduce = reduce.bind (normalMember "reduce") := by
  cases reduce with
  | none => rfl
  | some value => cases value <;> rfl

/-- A view that was read is written in its normal form. -/
theorem toJson_of_ofJson {json : Json} (hform : json.wellFormed = true) {view : View}
    (h : View.ofJson json = .ok view) : view.toJson = normal json := by
  obtain ⟨members, key, rfl, hknown, hkey, hread, hvalue, hreduce⟩ := ofJson_eq_ok_iff.mp h
  have hsorted := (Json.wellFormed_obj_iff.mp hform).1
  have hwritten : Dict.Sorted (present ["key", "reduce", "value"]
      [some view.key.toJson, view.reduce, view.value.map Pattern.toJson]) := sorted_present (by decide) _
  rw [toJson_eq_present, normal]
  congr 1
  refine hwritten.ext (hsorted.filterMap _) fun name => ?_
  rw [Dict.find?_filterMap hsorted]
  by_cases hname : name ∈ fields
  · simp only [fields, List.mem_cons, List.not_mem_nil, or_false] at hname
    rcases hname with rfl | rfl | rfl
    · have hwrittenKey := KeyPattern.toJson_of_ofJson (wellFormed_of_find? hform hkey) hread
      rw [hkey, Option.bind_some]
      simp [present, optionalMember, Dict.find?, hwrittenKey, normalMember]
    · rw [← map_toJson_of_decodeValue (wellFormed_find? hform "value") hvalue]
      simp [present, Dict.find?_append, find?_optionalMember]
    · rw [← decodeReduce_eq_bind, hreduce]
      simp [present, Dict.find?_append, find?_optionalMember]
  · rw [find?_of_firstUnknown hknown hname, Option.bind_none]
    refine Dict.find?_eq_none fun member hmem heq => hname ?_
    have hmember := mem_names_of_mem_present hmem
    rw [heq] at hmember
    exact (by decide : ["key", "reduce", "value"] ⊆ fields) hmember

theorem reduce_ne_null_of_ofJson {json : Json} {view : View} (h : View.ofJson json = .ok view) :
    view.reduce ≠ some .null := by
  obtain ⟨members, key, -, -, -, -, -, hreduce⟩ := ofJson_eq_ok_iff.mp h
  intro hnull
  rw [← hreduce, decodeReduce, Option.filter_eq_some_iff] at hnull
  cases hnull.2

/-- A written view is read back, but for a reduce that is `null`. -/
theorem ofJson_toJson (view : View) :
    View.ofJson view.toJson = .ok { view with reduce := decodeReduce view.reduce } := by
  refine ofJson_eq_ok_iff.mpr ⟨_, view.key.toJson, view.toJson_eq_present, ?_, ?_,
    KeyPattern.ofJson_toJson view.key, ?_, ?_⟩
  · exact firstUnknown_eq_none fun member hmem =>
      (by decide : ["key", "reduce", "value"] ⊆ fields) (mem_names_of_mem_present hmem)
  · simp [present, optionalMember, Dict.find?]
  · simp [present, Dict.find?_append, find?_optionalMember, decodeValue_toJson]
  · simp [present, Dict.find?_append, find?_optionalMember]

/-- **The JSON form of views is a faithful codec.** A view is read back from what is written of it
exactly when its reduce is not an explicit `null`, which reads as none. What is written of a view that
was read is the value it was read from in its normal form, and to read and write that once more changes
nothing. -/
theorem codec_faithful :
    (∀ view : View, (View.ofJson view.toJson = .ok view ↔ view.reduce ≠ some .null) ∧
      (view.reduce = some .null → View.ofJson view.toJson = .ok { view with reduce := none })) ∧
    ∀ (json : Json) (view : View), json.wellFormed = true → View.ofJson json = .ok view →
      view.toJson = normal json ∧
        (View.ofJson (normal json)).map View.toJson = .ok (normal json) := by
  constructor
  · intro view
    have hread := ofJson_toJson view
    constructor
    · constructor
      · intro hsame hnull
        exact reduce_ne_null_of_ofJson hsame hnull
      · intro hproper
        rw [hread, decodeReduce_eq_self hproper]
    · intro hnull
      rw [hread, hnull]
      rfl
  · intro json view hform hjson
    have hwritten := toJson_of_ofJson hform hjson
    refine ⟨hwritten, ?_⟩
    rw [← hwritten, ofJson_toJson, decodeReduce_eq_self (reduce_ne_null_of_ofJson hjson)]
    rfl

/-- A view whose first key part spells out defaults on two levels and tests for `null`. -/
def wordyView : Json :=
  .obj [("key", .arr [.obj [("access", .obj [("access", .str "a"), ("emit", .bool true),
      ("equals", .null), ("invert", .bool false)]), ("splay", .null), ("transform", .null)], .str "b"]),
    ("reduce", .null), ("value", .null)]

/-- Of that view the tested `null` is kept and every default goes. -/
theorem normal_wordyView :
    wordyView.wellFormed = true ∧ ∃ view, View.ofJson wordyView = .ok view ∧
      view.toJson = .obj [("key", .arr [.obj [("access", .obj [("access", .str "a"),
        ("emit", .bool true), ("equals", .null)])], .str "b"])] := by
  have hform : wordyView.wellFormed = true := by decide
  have hread : View.ofJson wordyView = .ok ⟨.composite [.access (.access (.path ⟨"a"⟩)
      { Descriptor.none with emit := true, equals := some .null }) .none, .path ⟨"b"⟩], none, none⟩ := rfl
  exact ⟨hform, _, hread, (codec_faithful.2 wordyView _ hform hread).1⟩

end View

end DocIndex
