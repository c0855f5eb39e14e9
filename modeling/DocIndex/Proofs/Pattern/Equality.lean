import DocIndex.Proofs.Pattern.RoundTrip

/-!
# Equal views, equal texts

Two views are equal exactly when their stored forms are equal as JSON (`View.toDefinition_beq`). What is
written of a pattern is a list of members of which each may be left out, always in the same order, so
that two such lists are equal if and only if they agree member by member (`Json.equalMembers_present`).
-/

namespace DocIndex

/-! ### Members that may be left out -/

/-- The members with these names that have a value. -/
def present (names : List String) (values : List (Option Json)) : List (String × Json) :=
  (List.zipWith optionalMember names values).flatten

theorem mem_names_of_mem_present {names : List String} {values : List (Option Json)}
    {member : String × Json} (h : member ∈ present names values) : member.1 ∈ names := by
  induction names generalizing values with
  | nil => cases h
  | cons name names ih =>
    cases values with
    | nil => cases h
    | cons value values =>
      rcases List.mem_append.mp h with hfirst | hrest
      · exact List.mem_cons.mpr (.inl (eq_of_mem_optionalMember hfirst))
      · exact List.mem_cons_of_mem _ (ih hrest)

namespace Json

theorem equalMembers_cons_of_notMem {key : String} {value : Json} {members : List (String × Json)}
    (h : ∀ member ∈ members, member.1 ≠ key) (rest : List (String × Json)) :
    equalMembers ((key, value) :: rest) members = false ∧
      equalMembers members ((key, value) :: rest) = false := by
  cases members with
  | nil => exact ⟨rfl, rfl⟩
  | cons member members =>
    have hne := h member List.mem_cons_self
    exact ⟨by simp [equalMembers, Ne.symm hne], by simp [equalMembers, hne]⟩

theorem equalMembers_optionalMember {name : String} {x y : Option Json}
    {xs ys : List (String × Json)} (hxs : ∀ member ∈ xs, member.1 ≠ name)
    (hys : ∀ member ∈ ys, member.1 ≠ name) :
    equalMembers (optionalMember name x ++ xs) (optionalMember name y ++ ys) =
      (equalOption x y && equalMembers xs ys) := by
  cases x with
  | none =>
    cases y with
    | none => rfl
    | some y => exact (equalMembers_cons_of_notMem hxs ys).2
  | some x =>
    cases y with
    | none => exact (equalMembers_cons_of_notMem hys xs).1
    | some y =>
      simp only [optionalMember, List.singleton_append, equalMembers, beq_self_eq_true, Bool.true_and]
      rfl

/-- Members under the same names are equal if each of them is, or is left out, on both sides. -/
theorem equalMembers_present {names : List String} (hnodup : names.Nodup) {xs ys : List (Option Json)}
    (hxs : xs.length = names.length) (hys : ys.length = names.length) :
    equalMembers (present names xs) (present names ys) = (List.zipWith equalOption xs ys).all id := by
  induction names generalizing xs ys with
  | nil =>
    obtain rfl := List.length_eq_zero_iff.mp hxs
    rfl
  | cons name names ih =>
    obtain ⟨x, xs, rfl⟩ := List.exists_cons_of_length_eq_add_one hxs
    obtain ⟨y, ys, rfl⟩ := List.exists_cons_of_length_eq_add_one hys
    obtain ⟨hname, hnames⟩ := List.nodup_cons.mp hnodup
    have hne : ∀ values, ∀ member ∈ present names values, member.1 ≠ name :=
      fun values member hmem heq => hname (heq ▸ mem_names_of_mem_present hmem)
    show equalMembers (optionalMember name x ++ present names xs)
      (optionalMember name y ++ present names ys) = _
    rw [equalMembers_optionalMember (hne xs) (hne ys), ih hnames (Nat.succ.inj hxs) (Nat.succ.inj hys)]
    rfl

end Json

theorem flagMember_eq (name : String) (on : Bool) :
    flagMember name on = optionalMember name (if on = true then some (.bool true) else none) := by
  cases on <;> rfl

theorem equalOption_flag (a b : Bool) :
    Json.equalOption (if a = true then some (.bool true) else none)
      (if b = true then some (.bool true) else none) = (a == b) := by
  cases a <;> cases b <;> rfl

/-! ### Patterns -/

namespace Transform

theorem name_injective {a b : Transform} (h : a.name = b.name) : a = b := by
  have ha := ofName?_name a
  rw [h, ofName?_name b] at ha
  exact (Option.some.inj ha).symm

theorem equalOption_map_name (a b : Option Transform) :
    Json.equalOption (a.map fun transform => .str transform.name)
      (b.map fun transform => .str transform.name) = (a == b) := by
  cases a with
  | none => cases b <;> rfl
  | some a =>
    cases b with
    | none => rfl
    | some b =>
      show (a.name == b.name) = (some a == some b)
      rw [Bool.eq_iff_iff, beq_iff_eq, beq_iff_eq, Option.some.injEq]
      exact ⟨name_injective, congrArg name⟩

end Transform

namespace Descriptor

/-- The names of an access object's members, in order. -/
def names : List String :=
  ["access", "emit", "equals", "flatten", "invert", "splay", "transform"]

/-- The values of an access object's members, in the order of their names. -/
def values (d : Descriptor) (inner : Json) : List (Option Json) :=
  [some inner, if d.emit = true then some (.bool true) else .none, d.equals,
    if d.flatten = true then some (.bool true) else .none,
    if d.invert = true then some (.bool true) else .none,
    if d.splay = true then some (.bool true) else .none,
    d.transform.map fun transform => .str transform.name]

theorem members_eq_present (d : Descriptor) (inner : Json) :
    d.members inner = present names (d.values inner) := by
  simp [members, present, names, values, flagMember_eq, optionalMember]

theorem equalMembers_members (a b : Descriptor) (x y : Json) :
    Json.equalMembers (a.members x) (b.members y) = (x.equal y && a.equal b) := by
  rw [members_eq_present, members_eq_present, Json.equalMembers_present (by decide) rfl rfl]
  simp only [values, List.zipWith_cons_cons, List.zipWith_nil_left, List.all_cons, List.all_nil, id_eq,
    equalOption_flag, Transform.equalOption_map_name, equal]
  show (x.equal y && _) = _
  simp only [Bool.and_true]
  grind

end Descriptor

namespace Pattern

/-- Patterns are equal exactly when they are written alike. -/
theorem toJson_beq (a b : Pattern) : (a.toJson == b.toJson) = (a == b) := by
  show a.toJson.equal b.toJson = a.equal b
  induction a generalizing b with
  | path p =>
    cases b with
    | path q =>
      show (p.raw == q.raw) = (p == q)
      rw [Bool.eq_iff_iff, beq_iff_eq, beq_iff_eq]
      exact ⟨congrArg Path.mk, congrArg Path.raw⟩
    | access inner d => rfl
  | access inner d ih =>
    cases b with
    | path q => rfl
    | access other e =>
      show Json.equalMembers (d.members inner.toJson) (e.members other.toJson) = _
      rw [Descriptor.equalMembers_members, ih, Pattern.equal]

theorem equalItems_toJson (as bs : List Pattern) :
    Json.equalItems (as.map toJson) (bs.map toJson) = equalAll as bs := by
  induction as generalizing bs with
  | nil => cases bs <;> rfl
  | cons a as ih =>
    cases bs with
    | nil => rfl
    | cons b bs =>
      simp only [List.map_cons, Json.equalItems, equalAll, ih]
      rw [show a.toJson.equal b.toJson = a.equal b from toJson_beq a b]

end Pattern

theorem KeyPattern.toJson_beq (a b : KeyPattern) : (a.toJson == b.toJson) = (a == b) := by
  cases a with
  | single p =>
    cases b with
    | single q => exact p.toJson_beq q
    | composite bs =>
      show p.toJson.equal _ = false
      rcases p.toJson_cases with ⟨raw, h⟩ | ⟨members, h⟩ <;> rw [h] <;> rfl
  | composite as =>
    cases b with
    | single q =>
      show Json.equal (.arr _) q.toJson = false
      rcases q.toJson_cases with ⟨raw, h⟩ | ⟨members, h⟩ <;> rw [h] <;> rfl
    | composite bs => exact Pattern.equalItems_toJson as bs

/-! ### Views -/

namespace View

theorem beq_eq (a b : View) : (a == b) =
    (a.key == b.key && Json.equalOption (a.value.map Pattern.toJson) (b.value.map Pattern.toJson) &&
      Json.equalOption a.reduce b.reduce) := by
  obtain ⟨key, value, reduce⟩ := a
  obtain ⟨key', value', reduce'⟩ := b
  cases value with
  | none => cases value' <;> rfl
  | some p =>
    cases value' with
    | none => rfl
    | some q =>
      show (key.equal key' && p.equal q && _) = (_ && (p.toJson == q.toJson) && _)
      rw [Pattern.toJson_beq]
      rfl

theorem patternsToJson_eq (view : View) : view.patternsToJson =
    .obj (present ["key", "value"] [some view.key.toJson, view.value.map Pattern.toJson]) := by
  simp [patternsToJson, present, optionalMember]

theorem toDefinition_eq (view : View) : view.toDefinition =
    .obj (present ["map", "reduce"] [some view.patternsToJson, view.reduce]) := by
  simp [toDefinition, present, optionalMember]

theorem patternsToJson_beq (a b : View) : (a.patternsToJson == b.patternsToJson) =
    (a.key == b.key && Json.equalOption (a.value.map Pattern.toJson) (b.value.map Pattern.toJson)) := by
  rw [patternsToJson_eq, patternsToJson_eq]
  show Json.equalMembers _ _ = _
  rw [Json.equalMembers_present (by decide) rfl rfl, ← KeyPattern.toJson_beq]
  simp [Json.equalOption]

/-- Views are equal exactly when their stored forms are. -/
theorem toDefinition_beq (a b : View) : (a.toDefinition == b.toDefinition) = (a == b) := by
  rw [toDefinition_eq, toDefinition_eq, beq_eq, ← patternsToJson_beq]
  show Json.equalMembers _ _ = _
  rw [Json.equalMembers_present (by decide) rfl rfl]
  simp [Json.equalOption]

end View

end DocIndex
