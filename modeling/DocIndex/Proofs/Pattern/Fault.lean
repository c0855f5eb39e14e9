import DocIndex.Proofs.Json.Everywhere
import DocIndex.Proofs.Pattern.Grammar
import DocIndex.Proofs.Pattern.Place

/-!
# Where a fault lies

An error of the strict reader names a place in the text that it reads, and the fault lies in the value at
this place: by itself, whatever surrounds it, that value is no pattern, no transform or no switch. The place is
carried along as the reader goes inside (`Pattern.decodeAt_eq_error`), and from the root of a view it leads to a
value that is there (`View.ofJson_error_location`).
-/

namespace DocIndex

theorem bind_eq_error_iff {α β ε : Type} {x : Except ε α} {f : α → Except ε β} {error : ε} :
    x >>= f = .error error ↔ x = .error error ∨ ∃ a, x = .ok a ∧ f a = .error error := by
  cases x <;> simp [bind, Except.bind]

theorem map_eq_error_iff {α β ε : Type} {x : Except ε α} {f : α → β} {error : ε} :
    x.map f = .error error ↔ x = .error error := by
  cases x <;> simp [Except.map]

/-! ### Faults of a value -/

/-- Whether a value has the fault that an error reports, by itself. If the error does not name a member, the
value read alone as a pattern gives the same message at its own root. A transform is neither `null` nor one of
the names, and it is an unknown one exactly if it is a string. A switch is neither `null` nor a truth value. -/
def PatternError.IsFaultOf (error : PatternError) (node : Json) : Prop :=
  match error.location.field with
  | none => ∃ own, Pattern.ofJson node = .error own ∧
      own.message = "Invalid pattern at pattern: " ++ error.reason ∧
      error.message = "Invalid pattern at " ++ error.location.text ++ ": " ++ error.reason
  | some .transform => node ≠ .null ∧ (∀ name ∈ Pattern.transformNames, node ≠ .str name) ∧
      ∀ name, error = .unknownTransform error.location name ↔ node = .str name
  | some (.flag _) => node ≠ .null ∧ ∀ on, node ≠ .bool on

/-- Whether the place that an error names is there in a view, and the value at this place has the fault. -/
def PatternError.LiesIn (error : PatternError) (view : Json) : Prop :=
  ∃ node, error.location.follow view = some node ∧ error.IsFaultOf node

namespace Pattern

/-! ### Descriptors -/

theorem decodeTransform_eq_error {location : Location} {value : Option Json} {error : PatternError}
    (h : decodeTransform location value = .error error) :
    ∃ node, value = some node ∧ error.location = location.member .transform ∧ error.IsFaultOf node := by
  cases value with
  | none => cases h
  | some node =>
    refine ⟨node, rfl, ?_⟩
    cases node with
    | null => cases h
    | str name =>
      rw [decodeTransform] at h
      cases hname : Transform.ofName? name with
      | some transform =>
        rw [hname] at h
        cases h
      | none =>
        rw [hname] at h
        obtain rfl := Except.error.inj h
        refine ⟨rfl, fun heq => ?_, fun other hmem heq => ?_, fun other => ?_⟩
        · cases heq
        · obtain rfl := Json.str.inj heq
          obtain ⟨transform, htransform⟩ := mem_transformNames_iff.mp hmem
          rw [Transform.ofName?_eq_some_iff.mpr htransform] at hname
          cases hname
        · simp [PatternError.location]
    | _ =>
      obtain rfl := Except.error.inj h
      refine ⟨rfl, fun heq => ?_, fun name _ heq => ?_, fun name => ⟨fun heq => ?_, fun heq => ?_⟩⟩
      all_goals cases heq

theorem decodeFlag_eq_error {location : Location} {members : List (String × Json)} {flag : Flag}
    {error : PatternError} (h : decodeFlag location members flag = .error error) :
    ∃ node, Dict.find? flag.name members = some node ∧ error.location = location.member (.flag flag) ∧
      error.IsFaultOf node := by
  unfold decodeFlag at h
  cases hfind : Dict.find? flag.name members with
  | none =>
    rw [hfind] at h
    cases h
  | some node =>
    rw [hfind] at h
    refine ⟨node, rfl, ?_⟩
    cases node with
    | null => cases h
    | bool on => cases h
    | _ =>
      obtain rfl := Except.error.inj h
      refine ⟨rfl, fun heq => ?_, fun on heq => ?_⟩
      all_goals cases heq

/-- A descriptor that is refused has a transform or a switch that is refused. -/
theorem decodeDescriptor_eq_error {location : Location} {members : List (String × Json)}
    {error : PatternError} (h : decodeDescriptor location members = .error error) :
    ∃ field node, Dict.find? (Location.Field.name field) members = some node ∧
      error.location = location.member field ∧ error.IsFaultOf node := by
  have hflag : ∀ flag, decodeFlag location members flag = .error error →
      ∃ field node, Dict.find? (Location.Field.name field) members = some node ∧
        error.location = location.member field ∧ error.IsFaultOf node :=
    fun flag hflag => ⟨.flag flag, decodeFlag_eq_error hflag⟩
  -- the parts are read in this order, and the first that is refused is reported
  rcases bind_eq_error_iff.mp h with htransform | ⟨_, -, h⟩
  · exact ⟨.transform, decodeTransform_eq_error htransform⟩
  rcases bind_eq_error_iff.mp h with hsplay | ⟨_, -, h⟩
  · exact hflag .splay hsplay
  rcases bind_eq_error_iff.mp h with hemit | ⟨_, -, h⟩
  · exact hflag .emit hemit
  rcases bind_eq_error_iff.mp h with hinvert | ⟨_, -, h⟩
  · exact hflag .invert hinvert
  rcases bind_eq_error_iff.mp h with hflatten | ⟨_, -, h⟩
  · exact hflag .flatten hflatten
  · cases h

/-! ### Patterns -/

/-- An access object is refused for an unknown member, for the lack of an inner pattern, for its inner pattern or
for its descriptor. -/
theorem decodeAccess_eq_error {location : Location} {members : List (String × Json)}
    {inner : Option (Except PatternError Pattern)} {error : PatternError}
    (h : decodeAccess location members inner = .error error) :
    (∃ name, firstUnknown fields members = some name ∧ error = .unexpectedField location name) ∨
      (firstUnknown fields members = none ∧ inner = none ∧ error = .missingAccess location) ∨
      inner = some (.error error) ∨ decodeDescriptor location members = .error error := by
  unfold decodeAccess at h
  split at h
  · rename_i name hknown
    exact .inl ⟨name, hknown, (Except.error.inj h).symm⟩
  · rename_i hknown
    split at h
    · exact .inr (.inl ⟨hknown, rfl, (Except.error.inj h).symm⟩)
    · rcases bind_eq_error_iff.mp h with hinner | ⟨inner, -, h⟩
      · exact .inr (.inr (.inl (congrArg some hinner)))
      · rcases bind_eq_error_iff.mp h with hdescriptor | ⟨descriptor, -, h⟩
        · exact .inr (.inr (.inr hdescriptor))
        · cases h

/-- A value that is refused for what it is itself is refused alike when it stands alone. -/
theorem isFaultOf_of_own {node : Json} {error own : PatternError} (hfield : error.location.field = none)
    (hown : ofJson node = .error own)
    (hmessage : own.message = "Invalid pattern at pattern: " ++ error.reason)
    (herror : error.message = "Invalid pattern at " ++ error.location.text ++ ": " ++ error.reason) :
    error.IsFaultOf node := by
  unfold PatternError.IsFaultOf
  rw [hfield]
  exact ⟨own, hown, hmessage, herror⟩

/-- Inside a view the reader goes from a place to the places further inside, and reports a value that is at one
of them. -/
theorem decodeAt_eq_error {view json : Json} {location : Location} {error : PatternError}
    (hfield : location.field = none) (hfollow : location.follow view = some json)
    (h : decodeAt location json = .error error) :
    error.location.root = location.root ∧ error.LiesIn view := by
  -- the inner pattern is less deep than the object that it is in
  induction hdepth : json.depth using Nat.strongRecOn generalizing json location with
  | ind depth ih =>
    cases json with
    | str raw => cases h
    | obj members =>
      rw [decodeAt, decodeInner_eq] at h
      rcases decodeAccess_eq_error h with ⟨name, hknown, rfl⟩ | ⟨hknown, hinner, rfl⟩ | hinner | hdescriptor
      · have hown : ofJson (.obj members) = .error (.unexpectedField (.ofRoot .pattern) name) := by
          simp only [ofJson, decodeAt, decodeAccess, hknown]
        exact ⟨rfl, _, hfollow, isFaultOf_of_own hfield hown rfl rfl⟩
      · have hmissing := Option.map_eq_none_iff.mp hinner
        have hown : ofJson (.obj members) = .error (.missingAccess (.ofRoot .pattern)) := by
          simp only [ofJson, decodeAt, decodeInner_eq, decodeAccess, hknown, hmissing, Option.map_none]
        exact ⟨rfl, _, hfollow, isFaultOf_of_own hfield hown rfl rfl⟩
      · obtain ⟨value, hfind, hvalue⟩ := Option.map_eq_some_iff.mp hinner
        have hlt : value.depth < depth := by
          rw [← hdepth, Json.depth]
          exact Nat.lt_succ_of_le
            (Json.depthMembers_le_iff.mp (Nat.le_refl _) ("access", value) (Dict.mem_of_find? hfind))
        have hinside : location.access.follow view = some value := by
          rw [Location.follow_access hfield, hfollow]
          exact hfind
        exact @ih value.depth hlt value location.access hfield hinside hvalue rfl
      · obtain ⟨field, node, hnode, hlocation, hfault⟩ := decodeDescriptor_eq_error hdescriptor
        have hroot : error.location.root = location.root := by rw [hlocation]; rfl
        refine ⟨hroot, node, ?_, hfault⟩
        rw [hlocation, Location.follow_member hfield, hfollow]
        exact hnode
    | _ =>
      obtain rfl := Except.error.inj h
      exact ⟨rfl, _, hfollow, isFaultOf_of_own hfield rfl rfl rfl⟩

end Pattern

/-! ### Keys and views -/

theorem KeyPattern.decodeParts_eq_error {index : Nat} {items : List Json} {error : PatternError}
    (h : decodeParts index items = .error error) :
    ∃ i item, items[i]? = some item ∧
      Pattern.decodeAt (.ofRoot (.keyPart (index + i))) item = .error error := by
  induction items generalizing index with
  | nil => cases h
  | cons item items ih =>
    rcases bind_eq_error_iff.mp h with hitem | ⟨part, -, h⟩
    · exact ⟨0, item, rfl, hitem⟩
    · rcases bind_eq_error_iff.mp h with hrest | ⟨parts, -, h⟩
      · obtain ⟨i, found, hfound, herror⟩ := ih hrest
        exact ⟨i + 1, found, hfound, by rwa [Nat.add_right_comm] at herror⟩
      · cases h

/-- What is wrong with a key is wrong with the value at some place inside it. -/
theorem KeyPattern.ofJson_eq_error {view key : Json} {error : PatternError}
    (hkey : view.member? "key" = some key) (h : ofJson key = .error error) :
    error.location.IsInside ∧ error.LiesIn view := by
  have hsingle : Pattern.decodeAt (.ofRoot .key) key = .error error →
      error.location.IsInside ∧ error.LiesIn view := by
    intro hpattern
    have hfollow : (Location.ofRoot .key).follow view = some key := by
      rw [Location.follow, Location.ofRoot, hkey]
      rfl
    obtain ⟨hroot, hfault⟩ := Pattern.decodeAt_eq_error rfl hfollow hpattern
    exact ⟨.inl hroot, hfault⟩
  cases key with
  | arr items =>
    obtain ⟨i, item, hitem, herror⟩ := decodeParts_eq_error (map_eq_error_iff.mp h)
    rw [Nat.zero_add] at herror
    have hfollow : (Location.ofRoot (.keyPart i)).follow view = some item := by
      simp only [Location.follow, Location.ofRoot, hkey, hitem]
      rfl
    obtain ⟨hroot, hfault⟩ := Pattern.decodeAt_eq_error rfl hfollow herror
    exact ⟨.inr (.inr ⟨i, hroot⟩), hfault⟩
  | _ => exact hsingle (map_eq_error_iff.mp (show Except.map single _ = _ from h))

namespace View

theorem decodeValue_eq_error {view : Json} {error : PatternError}
    (h : decodeValue (view.member? "value") = .error error) :
    error.location.IsInside ∧ error.LiesIn view := by
  cases hvalue : view.member? "value" with
  | none =>
    rw [hvalue] at h
    cases h
  | some value =>
    rw [hvalue] at h
    have hpattern : Pattern.decodeAt (.ofRoot .value) value = .error error := by
      cases value with
      | null => cases h
      | _ => exact map_eq_error_iff.mp (show Except.map some _ = _ from h)
    have hfollow : (Location.ofRoot .value).follow view = some value := by
      rw [Location.follow, Location.ofRoot, hvalue]
      rfl
    obtain ⟨hroot, hfault⟩ := Pattern.decodeAt_eq_error rfl hfollow hpattern
    exact ⟨.inr (.inl hroot), hfault⟩

/-- Whether a value is no view for what it is itself: it is no object, has an unknown member or no key. -/
def IsNoView (json : Json) : Prop :=
  (∀ members, json ≠ .obj members) ∨ ∃ members, json = .obj members ∧
    ((∃ member ∈ members, member.1 ∉ ["key", "value", "reduce"]) ∨ Dict.find? "key" members = none)

theorem isNoView_obj_iff {members : List (String × Json)} :
    IsNoView (.obj members) ↔ firstUnknown fields members ≠ none ∨ Dict.find? "key" members = none := by
  have hknown : firstUnknown fields members ≠ none ↔ ∃ member ∈ members, member.1 ∉ fields := by
    rw [ne_eq, Pattern.firstUnknown_eq_none_iff, Classical.not_forall]
    exact exists_congr fun member => Classical.not_imp
  rw [hknown]
  constructor
  · rintro (hobject | ⟨_, heq, h⟩)
    · exact absurd rfl (hobject members)
    · obtain rfl := Json.obj.inj heq
      exact h
  · exact fun h => .inr ⟨members, rfl, h⟩

/-- The reader reports the view as a whole, or a fault inside it. -/
theorem ofJson_eq_error {json : Json} {error : PatternError} (h : ofJson json = .error error) :
    (error.location = .ofRoot .view ∧ IsNoView json) ∨
      (error.location.IsInside ∧ ¬IsNoView json ∧ error.LiesIn json) := by
  cases json with
  | obj members =>
    rw [isNoView_obj_iff]
    rw [ofJson] at h
    cases hknown : firstUnknown fields members with
    | some name =>
      rw [hknown] at h
      obtain rfl := Except.error.inj h
      exact .inl ⟨rfl, .inl (Option.some_ne_none name)⟩
    | none =>
      rw [hknown] at h
      cases hkey : Dict.find? "key" members with
      | none =>
        rw [hkey] at h
        obtain rfl := Except.error.inj h
        exact .inl ⟨rfl, .inr rfl⟩
      | some key =>
        rw [hkey] at h
        have hview : ¬((none : Option String) ≠ none ∨ some key = none) := by simp
        rcases bind_eq_error_iff.mp h with hvalue | ⟨value, -, h⟩
        · obtain ⟨hinside, hfault⟩ := @decodeValue_eq_error (.obj members) _ hvalue
          exact .inr ⟨hinside, hview, hfault⟩
        · rcases bind_eq_error_iff.mp h with hpattern | ⟨pattern, -, h⟩
          · obtain ⟨hinside, hfault⟩ := @KeyPattern.ofJson_eq_error (.obj members) _ _ hkey hpattern
            exact .inr ⟨hinside, hview, hfault⟩
          · cases h
  | _ =>
    obtain rfl := Except.error.inj h
    refine .inl ⟨rfl, .inl fun members heq => ?_⟩
    cases heq

theorem exists_ofJson_eq_error_of_isNoView {json : Json} (h : IsNoView json) :
    ∃ error, ofJson json = .error error := by
  cases hread : ofJson json with
  | error error => exact ⟨error, rfl⟩
  | ok view =>
    obtain ⟨members, key, rfl, hknown, hkey, -⟩ := ofJson_eq_ok_iff.mp hread
    rcases isNoView_obj_iff.mp h with hunknown | hmissing
    · exact absurd hknown hunknown
    · rw [hkey] at hmissing
      cases hmissing

/-- **An error names the place of the fault.** Reading a value as a view fails with the place of the view itself
exactly if the value is no object, has an unknown member or lacks a key. Any other error names a place inside the
view: its text is `key`, `value` or a part of the key, then any number of `.access`, then the name of a transform
or switch or nothing; the place with this text, followed from the root, leads to a value that is there; and this
value has the fault by itself. -/
theorem ofJson_error_location (json : Json) :
    ((∃ error, ofJson json = .error error ∧ error.location.text = "view") ↔ IsNoView json) ∧
      ∀ error, ofJson json = .error error → error.location.text ≠ "view" →
        (∃ start depth tail, error.location.text = start ++ Location.accessText depth ++ tail ∧
          (start = "key" ∨ start = "value" ∨
            ∃ index, start = "key[" ++ String.ofList (Text.ofNat index) ++ "]") ∧
          (tail = "" ∨ ∃ name ∈ ["transform", "splay", "emit", "invert", "flatten"], tail = "." ++ name)) ∧
        ∀ place : Location, place.text = error.location.text →
          ∃ node, place.follow json = some node ∧ error.IsFaultOf node := by
  refine ⟨⟨?_, fun h => ?_⟩, fun error herror htext => ?_⟩
  · rintro ⟨error, herror, htext⟩
    rcases ofJson_eq_error herror with ⟨-, h⟩ | ⟨hinside, -⟩
    · exact h
    · exact absurd htext (Location.text_ne_view hinside)
  · obtain ⟨error, herror⟩ := exists_ofJson_eq_error_of_isNoView h
    rcases ofJson_eq_error herror with ⟨hlocation, -⟩ | ⟨-, hview, -⟩
    · exact ⟨error, herror, by rw [hlocation]; decide⟩
    · exact absurd h hview
  · rcases ofJson_eq_error herror with ⟨hlocation, -⟩ | ⟨hinside, -, hfault⟩
    · exact absurd (by rw [hlocation]; decide) htext
    · refine ⟨Location.text_eq_of_isInside hinside, fun place hplace => ?_⟩
      obtain rfl := Location.text_injective hplace
      exact hfault

/-- A view with many faults: two in the second part of its key, and its third part is no pattern. -/
def faultyView : Json :=
  .obj [("key", .arr [.str "a",
    .obj [("access", .obj [("access", .str "b"), ("splay", .num (.int 1))]), ("transform", .str "century")], .null])]

/-- The innermost fault of the first faulty part is reported, and the number is there. -/
theorem ofJson_faultyView : ∃ error, ofJson faultyView = .error error ∧
    error.location.text = "key[1].access.splay" ∧
      ∃ node, error.location.follow faultyView = some node ∧ error.IsFaultOf node := by
  have hread : ofJson faultyView =
      .error (.flagNotBoolean ⟨.keyPart 1, 1, some (.flag .splay)⟩ .num) := by rfl
  obtain ⟨-, hplace⟩ := ofJson_error_location faultyView
  exact ⟨_, hread, by decide, (hplace _ hread (by decide)).2 _ rfl⟩

end View

end DocIndex
