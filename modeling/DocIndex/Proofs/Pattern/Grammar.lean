import DocIndex.Proofs.Pattern.Decode

/-!
# The grammar of views

Which JSON values are patterns, keys and views is stated here as a grammar, and the strict reader accepts
exactly these (`View.exists_ofJson_iff_isView`): no malformed node at any depth gets through, and no well-formed
one is refused because of another member.
-/

namespace DocIndex

/-- Whether a member is absent, `null`, or one of the values that are allowed. -/
def Json.IsOptional (allowed : Json → Prop) : Option Json → Prop
  | none => True
  | some value => value = .null ∨ allowed value

namespace Pattern

/-- The names of the transforms. -/
def transformNames : List String :=
  ["date", "year", "month", "year-month", "day", "time", "hour", "minute", "datetime", "words"]

/-- The JSON values that are patterns: every string, and an access object around a pattern. -/
inductive IsPattern : Json → Prop where
  /-- Any string is a path. -/
  | path (raw : String) : IsPattern (.str raw)
  /-- An access object has an inner pattern, perhaps a transform and switches, and no other members but
  `equals`, which may be anything. -/
  | access {members : List (String × Json)} {value : Json}
      (known : ∀ member ∈ members,
        member.1 ∈ ["access", "transform", "splay", "emit", "equals", "invert", "flatten"])
      (found : Dict.find? "access" members = some value) (inner : IsPattern value)
      (transform : Json.IsOptional (fun value => ∃ name ∈ transformNames, value = .str name)
        (Dict.find? "transform" members))
      (switches : ∀ name ∈ ["splay", "emit", "invert", "flatten"],
        Json.IsOptional (fun value => ∃ on, value = .bool on) (Dict.find? name members)) :
      IsPattern (.obj members)

end Pattern

/-- The JSON values that are keys: a pattern, or an array of patterns. -/
def KeyPattern.IsKey (json : Json) : Prop :=
  Pattern.IsPattern json ∨ ∃ items, json = .arr items ∧ ∀ item ∈ items, Pattern.IsPattern item

/-- The JSON values that are views: objects with a key, perhaps a value and a reduce, and no other
members. -/
def View.IsView (json : Json) : Prop :=
  ∃ members key, json = .obj members ∧ (∀ member ∈ members, member.1 ∈ ["key", "value", "reduce"]) ∧
    Dict.find? "key" members = some key ∧ KeyPattern.IsKey key ∧
    Json.IsOptional Pattern.IsPattern (Dict.find? "value" members)

/-! ### Descriptors -/

namespace Pattern

theorem firstUnknown_eq_none_iff {known : List String} {members : List (String × Json)} :
    firstUnknown known members = none ↔ ∀ member ∈ members, member.1 ∈ known :=
  ⟨fun h _ => mem_of_firstUnknown h, firstUnknown_eq_none⟩

theorem mem_transformNames_iff {name : String} :
    name ∈ transformNames ↔ ∃ transform : Transform, name = transform.name := by
  constructor
  · intro h
    have hall : transformNames = Transform.all.map Transform.name := rfl
    rw [hall] at h
    obtain ⟨transform, -, rfl⟩ := List.mem_map.mp h
    exact ⟨transform, rfl⟩
  · rintro ⟨transform, rfl⟩
    cases transform <;> decide

theorem exists_decodeTransform_iff {location : Location} {value : Option Json} :
    (∃ transform, decodeTransform location value = .ok transform) ↔
      Json.IsOptional (fun value => ∃ name ∈ transformNames, value = .str name) value := by
  constructor
  · rintro ⟨transform, h⟩
    rcases decodeTransform_eq_ok_iff.mp h with ⟨hnone | hnull, -⟩ | ⟨t, ht, -⟩
    · subst hnone
      trivial
    · subst hnull
      exact .inl rfl
    · subst ht
      exact .inr ⟨t.name, mem_transformNames_iff.mpr ⟨t, rfl⟩, rfl⟩
  · intro h
    cases value with
    | none => exact ⟨none, decodeTransform_eq_ok_iff.mpr (.inl ⟨.inl rfl, rfl⟩)⟩
    | some value =>
      rcases h with rfl | ⟨name, hname, rfl⟩
      · exact ⟨none, decodeTransform_eq_ok_iff.mpr (.inl ⟨.inr rfl, rfl⟩)⟩
      · obtain ⟨t, rfl⟩ := mem_transformNames_iff.mp hname
        exact ⟨some t, decodeTransform_eq_ok_iff.mpr (.inr ⟨t, rfl, rfl⟩)⟩

theorem exists_decodeFlag_iff {location : Location} {members : List (String × Json)} {flag : Flag} :
    (∃ on, decodeFlag location members flag = .ok on) ↔
      Json.IsOptional (fun value => ∃ on, value = .bool on) (Dict.find? flag.name members) := by
  constructor
  · rintro ⟨on, h⟩
    rcases decodeFlag_eq_ok_iff.mp h with ⟨hnone | hnull, -⟩ | hon
    · rw [hnone]
      trivial
    · rw [hnull]
      exact .inl rfl
    · rw [hon]
      exact .inr ⟨on, rfl⟩
  · intro h
    cases hfind : Dict.find? flag.name members with
    | none => exact ⟨false, decodeFlag_eq_ok_iff.mpr (.inl ⟨.inl hfind, rfl⟩)⟩
    | some value =>
      rw [hfind] at h
      rcases h with rfl | ⟨on, rfl⟩
      · exact ⟨false, decodeFlag_eq_ok_iff.mpr (.inl ⟨.inr hfind, rfl⟩)⟩
      · exact ⟨on, decodeFlag_eq_ok_iff.mpr (.inr hfind)⟩

/-- A descriptor is read if its transform and each of its switches is. -/
theorem exists_decodeDescriptor_iff {location : Location} {members : List (String × Json)} :
    (∃ d, decodeDescriptor location members = .ok d) ↔
      (∃ transform, decodeTransform location (Dict.find? "transform" members) = .ok transform) ∧
        ∀ flag, ∃ on, decodeFlag location members flag = .ok on := by
  constructor
  · rintro ⟨d, h⟩
    obtain ⟨htransform, hsplay, hemit, -, hinvert, hflatten⟩ := decodeDescriptor_eq_ok_iff.mp h
    refine ⟨⟨_, htransform⟩, fun flag => ?_⟩
    cases flag with
    | splay => exact ⟨_, hsplay⟩
    | emit => exact ⟨_, hemit⟩
    | invert => exact ⟨_, hinvert⟩
    | flatten => exact ⟨_, hflatten⟩
  · rintro ⟨⟨transform, htransform⟩, hflags⟩
    obtain ⟨splay, hsplay⟩ := hflags .splay
    obtain ⟨emit, hemit⟩ := hflags .emit
    obtain ⟨invert, hinvert⟩ := hflags .invert
    obtain ⟨flatten, hflatten⟩ := hflags .flatten
    exact ⟨⟨transform, splay, emit, Dict.find? "equals" members, invert, flatten⟩,
      decodeDescriptor_eq_ok_iff.mpr ⟨htransform, hsplay, hemit, rfl, hinvert, hflatten⟩⟩

theorem forall_flag_iff {p : String → Prop} :
    (∀ flag : Flag, p flag.name) ↔ ∀ name ∈ ["splay", "emit", "invert", "flatten"], p name := by
  constructor
  · intro h
    simpa using ⟨h .splay, h .emit, h .invert, h .flatten⟩
  · intro h flag
    cases flag <;> exact h _ (by decide)

/-! ### Patterns, keys and views -/

/-- Wherever it stands, a value is read as a pattern if and only if the grammar says that it is one. -/
theorem exists_decodeAt_iff {location : Location} {json : Json} :
    (∃ pattern, decodeAt location json = .ok pattern) ↔ IsPattern json := by
  constructor
  · rintro ⟨pattern, h⟩
    induction pattern generalizing location json with
    | path p =>
      rcases decodeAt_eq_ok_iff.mp h with ⟨raw, rfl, -⟩ | ⟨_, _, _, _, -, -, -, -, -, hpath⟩
      · exact .path raw
      · cases hpath
    | access inner d ih =>
      rcases decodeAt_eq_ok_iff.mp h with
        ⟨_, -, hpattern⟩ | ⟨members, value, _, _, rfl, hknown, hfound, hinner, hd, hpattern⟩
      · cases hpattern
      · obtain ⟨rfl, rfl⟩ := Pattern.access.inj hpattern
        obtain ⟨htransform, hflags⟩ := exists_decodeDescriptor_iff.mp ⟨d, hd⟩
        exact .access (firstUnknown_eq_none_iff.mp hknown) hfound (ih hinner)
          (exists_decodeTransform_iff.mp htransform)
          (forall_flag_iff.mp fun flag => exists_decodeFlag_iff.mp (hflags flag))
  · intro h
    induction h generalizing location with
    | path raw => exact ⟨_, decodeAt_eq_ok_iff.mpr (.inl ⟨raw, rfl, rfl⟩)⟩
    | access hknown hfound hinner htransform hswitches ih =>
      obtain ⟨inner, hread⟩ := @ih location.access
      obtain ⟨d, hd⟩ := exists_decodeDescriptor_iff.mpr
        ⟨exists_decodeTransform_iff.mpr htransform,
          fun flag => exists_decodeFlag_iff.mpr (forall_flag_iff.mpr hswitches flag)⟩
      exact ⟨.access inner d, decodeAt_eq_ok_iff.mpr (.inr
        ⟨_, _, inner, d, rfl, firstUnknown_eq_none_iff.mpr hknown, hfound, hread, hd, rfl⟩)⟩

end Pattern

namespace KeyPattern

theorem exists_decodeParts_iff {index : Nat} {items : List Json} :
    (∃ parts, decodeParts index items = .ok parts) ↔ ∀ item ∈ items, Pattern.IsPattern item := by
  induction items generalizing index with
  | nil => simp [decodeParts_eq_ok_nil_iff]
  | cons item items ih =>
    rw [List.forall_mem_cons, ← @ih (index + 1),
      ← @Pattern.exists_decodeAt_iff (.ofRoot (.keyPart index))]
    constructor
    · rintro ⟨parts, h⟩
      obtain ⟨part, rest, hpart, hrest, -⟩ := decodeParts_eq_ok_cons_iff.mp h
      exact ⟨⟨part, hpart⟩, rest, hrest⟩
    · rintro ⟨⟨part, hpart⟩, rest, hrest⟩
      exact ⟨_, decodeParts_eq_ok_cons_iff.mpr ⟨part, rest, hpart, hrest, rfl⟩⟩

theorem exists_ofJson_iff_isKey {json : Json} : (∃ key, ofJson json = .ok key) ↔ IsKey json := by
  constructor
  · rintro ⟨key, h⟩
    rcases ofJson_eq_ok_iff.mp h with ⟨items, parts, rfl, hparts, -⟩ | ⟨pattern, hpattern, -⟩
    · exact .inr ⟨items, rfl, exists_decodeParts_iff.mp ⟨parts, hparts⟩⟩
    · exact .inl (Pattern.exists_decodeAt_iff.mp ⟨pattern, hpattern⟩)
  · rintro (hpattern | ⟨items, rfl, hitems⟩)
    · obtain ⟨pattern, hread⟩ := Pattern.exists_decodeAt_iff.mpr hpattern
      exact ⟨_, ofJson_eq_ok_iff.mpr (.inr ⟨pattern, hread, rfl⟩)⟩
    · obtain ⟨parts, hparts⟩ := exists_decodeParts_iff.mpr hitems
      exact ⟨_, ofJson_eq_ok_iff.mpr (.inl ⟨items, parts, rfl, hparts, rfl⟩)⟩

end KeyPattern

namespace View

theorem exists_decodeValue_iff {json : Option Json} :
    (∃ value, decodeValue json = .ok value) ↔ Json.IsOptional Pattern.IsPattern json := by
  constructor
  · rintro ⟨value, h⟩
    rcases decodeValue_eq_ok_iff.mp h with ⟨rfl | rfl, -⟩ | ⟨x, pattern, rfl, -, hpattern, -⟩
    · trivial
    · exact .inl rfl
    · exact .inr (Pattern.exists_decodeAt_iff.mp ⟨pattern, hpattern⟩)
  · intro h
    cases json with
    | none => exact ⟨none, decodeValue_eq_ok_iff.mpr (.inl ⟨.inl rfl, rfl⟩)⟩
    | some x =>
      by_cases hnull : x = .null
      · exact ⟨none, decodeValue_eq_ok_iff.mpr (.inl ⟨.inr (congrArg some hnull), rfl⟩)⟩
      · obtain ⟨pattern, hread⟩ := Pattern.exists_decodeAt_iff.mpr (h.resolve_left hnull)
        exact ⟨_, decodeValue_eq_ok_iff.mpr (.inr ⟨x, pattern, rfl, hnull, hread, rfl⟩)⟩

/-- **The reader accepts the grammar.** A JSON value is read as a view if and only if the grammar says
that it is one. -/
theorem exists_ofJson_iff_isView (json : Json) : (∃ view, View.ofJson json = .ok view) ↔ IsView json := by
  constructor
  · rintro ⟨view, h⟩
    obtain ⟨members, key, rfl, hknown, hkey, hread, hvalue, -⟩ := ofJson_eq_ok_iff.mp h
    exact ⟨members, key, rfl, Pattern.firstUnknown_eq_none_iff.mp hknown, hkey,
      KeyPattern.exists_ofJson_iff_isKey.mp ⟨_, hread⟩, exists_decodeValue_iff.mp ⟨_, hvalue⟩⟩
  · rintro ⟨members, key, rfl, hknown, hkey, hread, hvalue⟩
    obtain ⟨pattern, hpattern⟩ := KeyPattern.exists_ofJson_iff_isKey.mpr hread
    obtain ⟨value, hfound⟩ := exists_decodeValue_iff.mpr hvalue
    exact ⟨⟨pattern, value, decodeReduce (Dict.find? "reduce" members)⟩, ofJson_eq_ok_iff.mpr
      ⟨members, key, rfl, Pattern.firstUnknown_eq_none_iff.mpr hknown, hkey, hpattern, hfound, rfl⟩⟩

end View

end DocIndex
