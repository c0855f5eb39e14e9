import DocIndex.View.Compiled

/-!
# The transform `minute` in old indexes

The option for old indexes is a substitution. Under it a pattern gives what the pattern with `hour` in place
of every `minute` gives without it (`Pattern.interpret_legacyMinute`), whatever is around the transform, so that
the rows of a view are those of the view rewritten in this way (`View.rows_legacyMinute`).
-/

namespace DocIndex

/-! ### The substitution -/

namespace Transform

/-- The transform, or `hour` if it is `minute`. -/
def hourForMinute : Transform → Transform
  | minute => hour
  | other => other

theorem hourForMinute_of_ne {transform : Transform} (h : transform ≠ minute) :
    transform.hourForMinute = transform := by
  cases transform with
  | minute => exact absurd rfl h
  | _ => rfl

theorem isTemporal_hourForMinute (transform : Transform) :
    transform.hourForMinute.isTemporal = transform.isTemporal := by
  cases transform <;> rfl

end Transform

/-- The descriptor with `hour` in place of `minute`. -/
def Descriptor.hourForMinute (d : Descriptor) : Descriptor :=
  { d with transform := d.transform.map Transform.hourForMinute }

/-- The pattern with `hour` in place of `minute` in every descriptor. -/
def Pattern.hourForMinute : Pattern → Pattern
  | path p => path p
  | access inner d => access inner.hourForMinute d.hourForMinute

/-- The key with `hour` in place of `minute` in every part. -/
def KeyPattern.hourForMinute : KeyPattern → KeyPattern
  | single pattern => single pattern.hourForMinute
  | composite parts => composite (parts.map Pattern.hourForMinute)

/-- The view with `hour` in place of every `minute`. -/
def View.hourForMinute (view : View) : View :=
  { view with key := view.key.hourForMinute, value := view.value.map Pattern.hourForMinute }

/-! ### Views without `minute` -/

/-- Whether a descriptor of the pattern has the transform `minute`. -/
def Pattern.hasMinute : Pattern → Bool
  | path _ => false
  | access inner d => d.transform == some .minute || inner.hasMinute

/-- Whether a part of the key has the transform `minute` at some depth. -/
def KeyPattern.hasMinute : KeyPattern → Bool
  | single pattern => pattern.hasMinute
  | composite parts => parts.any Pattern.hasMinute

/-- Whether a view has the transform `minute` anywhere in its key or value. -/
def View.hasMinute (view : View) : Bool := view.key.hasMinute || view.value.any Pattern.hasMinute

theorem Descriptor.hourForMinute_eq_self {d : Descriptor} (h : d.transform ≠ some .minute) :
    d.hourForMinute = d := by
  obtain ⟨transform, splay, emit, equals, invert, flatten⟩ := d
  cases transform with
  | none => rfl
  | some transform =>
    rw [hourForMinute, Option.map_some, Transform.hourForMinute_of_ne]
    exact fun heq => h (congrArg some heq)

theorem Pattern.hourForMinute_eq_self {pattern : Pattern} (h : pattern.hasMinute = false) :
    pattern.hourForMinute = pattern := by
  induction pattern with
  | path p => rfl
  | access inner d ih =>
    rw [hasMinute, Bool.or_eq_false_iff, beq_eq_false_iff_ne] at h
    rw [hourForMinute, ih h.2, Descriptor.hourForMinute_eq_self h.1]

theorem KeyPattern.hourForMinute_eq_self {key : KeyPattern} (h : key.hasMinute = false) :
    key.hourForMinute = key := by
  cases key with
  | single pattern => exact congrArg single (Pattern.hourForMinute_eq_self h)
  | composite parts =>
    rw [hasMinute, List.any_eq_false] at h
    have hparts : ∀ part ∈ parts, part.hourForMinute = part := fun part hmem =>
      Pattern.hourForMinute_eq_self (Bool.eq_false_iff.mpr (h part hmem))
    rw [hourForMinute, List.map_congr_left hparts, List.map_id']

theorem View.hourForMinute_eq_self {view : View} (h : view.hasMinute = false) :
    view.hourForMinute = view := by
  obtain ⟨key, value, reduce⟩ := view
  rw [hasMinute, Bool.or_eq_false_iff] at h
  rw [hourForMinute, KeyPattern.hourForMinute_eq_self h.1]
  cases value with
  | none => rfl
  | some pattern => rw [Option.map_some, Pattern.hourForMinute_eq_self h.2]

/-! ### The option as the substitution -/

/-- The option changes one component, `minute`, which becomes `hour`. -/
theorem Timestamp.component_legacyMinute (t : Timestamp) (transform : Transform) :
    t.component ⟨true⟩ transform = t.component ⟨false⟩ transform.hourForMinute := by
  cases transform <;> rfl

theorem Transform.apply_legacyMinute (transform : Transform) :
    transform.apply ⟨true⟩ = transform.hourForMinute.apply ⟨false⟩ := by
  funext input
  have hvalue : transform.onValue? ⟨true⟩ = transform.hourForMinute.onValue? ⟨false⟩ := by
    funext value
    rw [onValue?, onValue?, isTemporal_hourForMinute]
    simp only [Timestamp.component_legacyMinute]
  rw [apply, apply, hvalue]

namespace Descriptor

theorem isPassthrough_hourForMinute (d : Descriptor) : d.hourForMinute.isPassthrough = d.isPassthrough := by
  unfold isPassthrough hourForMinute
  cases d.transform <;> rfl

theorem transformed_legacyMinute (d : Descriptor) :
    d.transformed ⟨true⟩ = d.hourForMinute.transformed ⟨false⟩ := by
  funext input
  unfold transformed hourForMinute
  cases d.transform with
  | none => rfl
  | some transform => exact congrFun transform.apply_legacyMinute input

/-- What comes after the transform, the test of a guard among it, is the same on both sides. -/
theorem apply_legacyMinute (d : Descriptor) : d.apply ⟨true⟩ = d.hourForMinute.apply ⟨false⟩ := by
  funext input
  rw [apply, apply, isPassthrough_hourForMinute, transformed_legacyMinute]
  rfl

end Descriptor

theorem Pattern.interpret_legacyMinute (document : Json) (pattern : Pattern) :
    pattern.interpret ⟨true⟩ document = pattern.hourForMinute.interpret ⟨false⟩ document := by
  induction pattern with
  | path p => rfl
  | access inner d ih => rw [interpret, ih, d.apply_legacyMinute, hourForMinute, interpret]

theorem KeyPattern.interpret_legacyMinute (document : Json) (key : KeyPattern) :
    key.interpret ⟨true⟩ document = key.hourForMinute.interpret ⟨false⟩ document := by
  cases key with
  | single pattern => exact congrArg InterpretedKey.single (pattern.interpret_legacyMinute document)
  | composite parts =>
    refine congrArg InterpretedKey.composite ?_
    rw [List.map_map]
    exact List.map_congr_left fun part _ => part.interpret_legacyMinute document

theorem View.rows_legacyMinute_eq (view : View) (document : Json) :
    view.rows ⟨true⟩ document = view.hourForMinute.rows ⟨false⟩ document := by
  obtain ⟨key, value, reduce⟩ := view
  have hvalue : value.map (Pattern.interpret ⟨true⟩ document) =
      (value.map Pattern.hourForMinute).map (Pattern.interpret ⟨false⟩ document) := by
    rw [Option.map_map]
    exact congrArg (Option.map · value) (funext (Pattern.interpret_legacyMinute document))
  rw [rows, rows, key.interpret_legacyMinute, hvalue]
  rfl

/-- **The option is a substitution.** Compiled for old indexes a view gives, on every document, the rows that the
view with `hour` in place of every `minute` gives without the option. So a view in which `minute` does not occur
gives the same rows with the option and without. -/
theorem View.rows_legacyMinute (view : View) (document : Json) :
    (view.compile ⟨true⟩).rows document = (view.hourForMinute.compile ⟨false⟩).rows document ∧
      (view.hasMinute = false →
        (view.compile ⟨true⟩).rows document = (view.compile ⟨false⟩).rows document) := by
  refine ⟨view.rows_legacyMinute_eq document, fun h => ?_⟩
  calc view.rows ⟨true⟩ document
    _ = view.hourForMinute.rows ⟨false⟩ document := view.rows_legacyMinute_eq document
    _ = view.rows ⟨false⟩ document := by rw [View.hourForMinute_eq_self h]

/-- A document with a time at seven minutes past two in the afternoon. -/
def afternoon : Json := .obj [("at", .str "2024-01-05T14:07:09Z")]

/-- A guard on a component of the time, in front of another component. -/
def clockView (guarded : Transform) : View :=
  ⟨.composite [.access (.access (.path ⟨"at"⟩) { Descriptor.none with transform := some guarded })
      { Descriptor.none with emit := true, equals := some (.str "14") },
    .access (.path ⟨"at"⟩) { Descriptor.none with transform := some .day }], none, none⟩

/-- A guard on the minute passes at two o'clock in an old index, since it does on the hour; a guard on the
hour needs no old index. -/
theorem rows_clockView :
    ((clockView .minute).compile ⟨true⟩).rows afternoon = ((clockView .hour).compile ⟨false⟩).rows afternoon ∧
      ((clockView .hour).compile ⟨true⟩).rows afternoon = ((clockView .hour).compile ⟨false⟩).rows afternoon ∧
      (((clockView .hour).compile ⟨false⟩).rows afternoon).length = 1 ∧
      (((clockView .minute).compile ⟨false⟩).rows afternoon).length = 0 :=
  ⟨(View.rows_legacyMinute (clockView .minute) afternoon).1,
    (View.rows_legacyMinute (clockView .hour) afternoon).2 (by decide), by decide +kernel, by decide +kernel⟩

end DocIndex
