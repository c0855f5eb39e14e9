import DocIndex.Proofs.Pattern.RoundTrip

/-!
# What reading a view looks at

When the strict reader accepts a value, and what it then answers, member by member: the transform, the
switches, the descriptor, a pattern (`Pattern.decodeAt_eq_ok_iff`), a key and a view
(`View.ofJson_eq_ok_iff`). Facts on accepted values use these and do not open the reader.
-/

namespace DocIndex

theorem mem_of_firstUnknown {known : List String} {members : List (String × Json)}
    (h : firstUnknown known members = none) {member : String × Json} (hmem : member ∈ members) :
    member.1 ∈ known := by
  rw [firstUnknown, List.find?_eq_none] at h
  have hkey := h member.1 (List.mem_map_of_mem hmem)
  simpa using hkey

/-- Where all members are known, no other name is bound. -/
theorem find?_of_firstUnknown {known : List String} {members : List (String × Json)}
    (h : firstUnknown known members = none) {name : String} (hname : name ∉ known) :
    Dict.find? name members = none := by
  refine Dict.find?_eq_none fun member hmem heq => hname ?_
  exact heq ▸ mem_of_firstUnknown h hmem

theorem Transform.ofName?_eq_some_iff {name : String} {transform : Transform} :
    ofName? name = some transform ↔ name = transform.name := by
  constructor
  · intro h
    have hname := List.find?_some h
    exact (beq_iff_eq.mp hname).symm
  · rintro rfl
    exact ofName?_name transform

namespace Pattern

/-! ### Descriptors -/

theorem decodeTransform_eq_ok_iff {location : Location} {value : Option Json}
    {transform : Option Transform} :
    decodeTransform location value = .ok transform ↔
      ((value = none ∨ value = some .null) ∧ transform = none) ∨
        ∃ t, value = some (.str t.name) ∧ transform = some t := by
  cases value with
  | none => simp [decodeTransform, eq_comm]
  | some value =>
    cases value with
    | null => simp [decodeTransform, eq_comm]
    | str name =>
      simp only [decodeTransform]
      cases hname : Transform.ofName? name with
      | none =>
        have hnone : ∀ t : Transform, name ≠ t.name := fun t heq => by
          rw [Transform.ofName?_eq_some_iff.mpr heq] at hname
          cases hname
        simp [hnone]
      | some t =>
        obtain rfl := Transform.ofName?_eq_some_iff.mp hname
        constructor
        · intro h
          exact .inr ⟨t, rfl, (Except.ok.inj h).symm⟩
        · rintro (⟨h, -⟩ | ⟨u, hu, rfl⟩)
          · rcases h with h | h <;> cases h
          · have htext := Json.str.inj (Option.some.inj hu)
            rw [Transform.ofName?_eq_some_iff.mpr htext] at hname
            rw [hname]
    | _ => simp [decodeTransform]

theorem decodeFlag_eq_ok_iff {location : Location} {members : List (String × Json)} {flag : Flag}
    {on : Bool} :
    decodeFlag location members flag = .ok on ↔
      ((Dict.find? flag.name members = none ∨ Dict.find? flag.name members = some .null) ∧ on = false) ∨
        Dict.find? flag.name members = some (.bool on) := by
  unfold decodeFlag
  cases Dict.find? flag.name members with
  | none => simp [eq_comm]
  | some value => cases value <;> simp [eq_comm]

theorem decodeDescriptor_eq_ok_iff {location : Location} {members : List (String × Json)}
    {d : Descriptor} :
    decodeDescriptor location members = .ok d ↔
      decodeTransform location (Dict.find? "transform" members) = .ok d.transform ∧
      decodeFlag location members .splay = .ok d.splay ∧
      decodeFlag location members .emit = .ok d.emit ∧
      Dict.find? "equals" members = d.equals ∧
      decodeFlag location members .invert = .ok d.invert ∧
      decodeFlag location members .flatten = .ok d.flatten := by
  obtain ⟨transform, splay, emit, equals, invert, flatten⟩ := d
  simp only [decodeDescriptor, bind, Except.bind, pure, Except.pure]
  cases decodeTransform location (Dict.find? "transform" members) with
  | error error => simp
  | ok readTransform =>
    cases decodeFlag location members .splay with
    | error error => simp
    | ok readSplay =>
      cases decodeFlag location members .emit with
      | error error => simp
      | ok readEmit =>
        cases decodeFlag location members .invert with
        | error error => simp
        | ok readInvert =>
          cases decodeFlag location members .flatten with
          | error error => simp
          | ok readFlatten => simp only [Except.ok.injEq, Descriptor.mk.injEq]

/-! ### Patterns -/

theorem decodeAccess_eq_ok_iff {location : Location} {members : List (String × Json)}
    {inner : Option (Except PatternError Pattern)} {pattern : Pattern} :
    decodeAccess location members inner = .ok pattern ↔
      firstUnknown fields members = none ∧ ∃ part d, inner = some (.ok part) ∧
        decodeDescriptor location members = .ok d ∧ pattern = .access part d := by
  unfold decodeAccess
  cases firstUnknown fields members with
  | some name => simp
  | none =>
    cases inner with
    | none => simp
    | some inner =>
      simp only [bind, Except.bind, pure, Except.pure]
      cases inner with
      | error error => simp
      | ok part => cases decodeDescriptor location members <;> simp [eq_comm]

/-- A pattern is read from a string, or from an access object that has an inner pattern, a proper
descriptor and no other member. -/
theorem decodeAt_eq_ok_iff {location : Location} {json : Json} {pattern : Pattern} :
    decodeAt location json = .ok pattern ↔
      (∃ raw, json = .str raw ∧ pattern = .path ⟨raw⟩) ∨
      ∃ members value inner d, json = .obj members ∧ firstUnknown fields members = none ∧
        Dict.find? "access" members = some value ∧ decodeAt location.access value = .ok inner ∧
        decodeDescriptor location members = .ok d ∧ pattern = .access inner d := by
  cases json with
  | str raw => simp [decodeAt, eq_comm]
  | obj members =>
    rw [decodeAt, decodeAccess_eq_ok_iff, decodeInner_eq]
    simp only [Option.map_eq_some_iff, reduceCtorEq, false_and, exists_false, false_or, Json.obj.injEq]
    constructor
    · rintro ⟨hknown, inner, d, ⟨value, haccess, hinner⟩, hd, rfl⟩
      exact ⟨members, value, inner, d, rfl, hknown, haccess, hinner, hd, rfl⟩
    · rintro ⟨_, value, inner, d, rfl, hknown, haccess, hinner, hd, rfl⟩
      exact ⟨hknown, inner, d, ⟨value, haccess, hinner⟩, hd, rfl⟩
  | _ => simp [decodeAt]

end Pattern

/-! ### Keys and views -/

namespace KeyPattern

theorem decodeParts_eq_ok_nil_iff {index : Nat} {parts : List Pattern} :
    decodeParts index [] = .ok parts ↔ parts = [] := by
  simp [decodeParts, eq_comm]

theorem decodeParts_eq_ok_cons_iff {index : Nat} {value : Json} {values : List Json}
    {parts : List Pattern} :
    decodeParts index (value :: values) = .ok parts ↔
      ∃ part rest, Pattern.decodeAt (.ofRoot (.keyPart index)) value = .ok part ∧
        decodeParts (index + 1) values = .ok rest ∧ parts = part :: rest := by
  simp only [decodeParts, bind, Except.bind, pure, Except.pure]
  cases Pattern.decodeAt (.ofRoot (.keyPart index)) value with
  | error error => simp
  | ok part => cases decodeParts (index + 1) values <;> simp [eq_comm]

/-- A key is read from an array of patterns or from one pattern. -/
theorem ofJson_eq_ok_iff {json : Json} {key : KeyPattern} :
    ofJson json = .ok key ↔
      (∃ items parts, json = .arr items ∧ decodeParts 0 items = .ok parts ∧ key = .composite parts) ∨
      ∃ pattern, Pattern.decodeAt (.ofRoot .key) json = .ok pattern ∧ key = .single pattern := by
  cases json with
  | arr items => cases h : decodeParts 0 items <;> simp [ofJson, h, Except.map, Pattern.decodeAt, eq_comm]
  | _ =>
    simp only [ofJson, reduceCtorEq, false_and, exists_false, false_or]
    cases Pattern.decodeAt (.ofRoot .key) _ <;> simp [Except.map, eq_comm]

end KeyPattern

namespace View

theorem decodeValue_eq_ok_iff {json : Option Json} {value : Option Pattern} :
    decodeValue json = .ok value ↔
      ((json = none ∨ json = some .null) ∧ value = none) ∨
      ∃ x pattern, json = some x ∧ x ≠ .null ∧ Pattern.decodeAt (.ofRoot .value) x = .ok pattern ∧
        value = some pattern := by
  cases json with
  | none => simp [decodeValue, eq_comm]
  | some x =>
    cases x with
    | null => simp [decodeValue, eq_comm]
    | _ =>
      simp only [decodeValue]
      cases h : Pattern.decodeAt (.ofRoot .value) _ <;> simp [Except.map, h, eq_comm]

/-- A view is read from an object that has a proper key, perhaps a value and a reduce, and no other
member. -/
theorem ofJson_eq_ok_iff {json : Json} {view : View} :
    View.ofJson json = .ok view ↔
      ∃ members key, json = .obj members ∧ firstUnknown fields members = none ∧
        Dict.find? "key" members = some key ∧ KeyPattern.ofJson key = .ok view.key ∧
        decodeValue (Dict.find? "value" members) = .ok view.value ∧
        decodeReduce (Dict.find? "reduce" members) = view.reduce := by
  obtain ⟨viewKey, viewValue, viewReduce⟩ := view
  cases json with
  | obj members =>
    simp only [View.ofJson]
    cases hknown : firstUnknown fields members with
    | some name => simp [hknown]
    | none =>
      cases hkey : Dict.find? "key" members with
      | none => simp [hknown, hkey]
      | some key =>
        simp only [bind, Except.bind, pure, Except.pure]
        cases hvalue : decodeValue (Dict.find? "value" members) with
        | error error => simp [hvalue]
        | ok value =>
          cases hread : KeyPattern.ofJson key with
          | error error => simp [hkey, hread]
          | ok pattern => simp [hknown, hkey, hvalue, hread]
  | _ => simp [View.ofJson]

end View

end DocIndex
