import DocIndex.Interpreted.Apply

/-!
# Descriptors around descriptors

A descriptor that sets anything sees what is inside it without its annotation (`Descriptor.apply_strip`). So
an `emit` or a `flatten` inside counts for nothing, but for one thing: a guard does not keep that its value is
absent. What is around the guard sees `null`, and some descriptors tell that from an absent value
(`Descriptor.apply_null_eq_iff`). That is the only case in which the inner descriptor still matters
(`Pattern.interpret_around_annotation`).
-/

namespace DocIndex

/-! ### Values without their annotation -/

namespace Interpreted

theorem strip_strip (value : Interpreted) : value.strip.strip = value.strip := by
  cases value <;> rfl

theorem strip_of_absent {value : Interpreted} (h : value.isAbsent = true) : value.strip = value := by
  cases value with
  | missing => rfl
  | failed => rfl
  | _ => cases h

theorem strip_of_present {value : Interpreted} (h : value.isAbsent = false) :
    value.strip = .plain value.payload := by
  cases value with
  | missing => cases h
  | failed => cases h
  | _ => rfl

theorem payload_of_absent {value : Interpreted} (h : value.isAbsent = true) : value.payload = .null := by
  cases value with
  | missing => rfl
  | failed => rfl
  | _ => cases h

end Interpreted

namespace Transform

theorem apply_strip (transform : Transform) (options : Options) (input : Interpreted) :
    transform.apply options input.strip = transform.apply options input := by
  cases input <;> rfl

theorem apply_of_absent (transform : Transform) (options : Options) {input : Interpreted}
    (h : input.isAbsent = true) : transform.apply options input = input :=
  if_pos h

/-- No transform reads `null`. -/
theorem apply_null (transform : Transform) (options : Options) :
    transform.apply options (.plain .null) = .failed := by
  cases transform <;> rfl

end Transform

namespace Descriptor

variable {d : Descriptor} {options : Options}

/-! ### What a descriptor sees -/

theorem apply_eq_annotate (h : d.isPassthrough = false) (input : Interpreted) :
    d.apply options input = d.annotate (d.transformed options input) := by
  rw [apply, h]
  rfl

/-- A descriptor that sets anything does not see the annotation of what is inside it. -/
theorem apply_strip (h : d.isPassthrough = false) (input : Interpreted) :
    d.apply options input.strip = d.apply options input := by
  have htransformed : d.transformed options input.strip = d.transformed options input := by
    unfold transformed
    cases d.transform with
    | none => exact input.strip_strip
    | some transform => exact transform.apply_strip options input
  rw [apply_eq_annotate h, apply_eq_annotate h, htransformed]

theorem transformed_of_no_transform (h : d.transform = .none) (input : Interpreted) :
    d.transformed options input = input.strip := by
  rw [transformed, h]

theorem apply_of_emit (htransform : d.transform = .none) (hemit : d.emit = true) (input : Interpreted) :
    d.apply options input = .guard input.strip.payload (d.isMatch input.strip != d.invert) := by
  have hpassthrough : d.isPassthrough = false := by simp [isPassthrough, hemit]
  rw [apply_eq_annotate hpassthrough, transformed_of_no_transform htransform, annotate, if_pos hemit]

theorem strip_flattened (value : Interpreted) : (flattened value).strip = value.strip := by
  unfold flattened
  split <;> rfl

/-- A descriptor that sets nothing, or `flatten` alone, leaves the value as it is. -/
theorem strip_apply_of_not_emit (htransform : d.transform = .none) (hsplay : d.splay = false)
    (hemit : d.emit = false) (input : Interpreted) : (d.apply options input).strip = input.strip := by
  cases hpassthrough : d.isPassthrough with
  | true => rw [apply, if_pos hpassthrough]
  | false =>
    rw [apply_eq_annotate hpassthrough, transformed_of_no_transform htransform, annotate, hemit, hsplay]
    cases d.flatten with
    | true => exact (strip_flattened _).trans input.strip_strip
    | false => exact input.strip_strip

/-- Without a transform and `splay` only the annotation changes, except that a guard makes an absent value
`null`. -/
theorem strip_apply (htransform : d.transform = .none) (hsplay : d.splay = false) (input : Interpreted) :
    (d.apply options input).strip =
      if d.emit = true ∧ input.isAbsent = true then .plain .null else input.strip := by
  cases hemit : d.emit with
  | false =>
    rw [strip_apply_of_not_emit htransform hsplay hemit, if_neg]
    exact fun h => Bool.false_ne_true h.1
  | true =>
    rw [apply_of_emit htransform hemit]
    cases habsent : input.isAbsent with
    | true =>
      rw [Interpreted.strip_of_absent habsent, Interpreted.payload_of_absent habsent]
      rfl
    | false =>
      rw [Interpreted.strip_of_present habsent]
      rfl

/-! ### Absent values and `null` -/

/-- Whether a descriptor tells an absent value from `null`. A guard does if it tests for `null` and has no
transform. A fan-out does not. Otherwise the value itself comes out, and `null` comes out of a transform as a
failed one. -/
def TellsFromNull (d : Descriptor) (absent : Interpreted) : Prop :=
  if d.emit = true then d.transform = .none ∧ d.equals = some .null
  else d.splay = false ∧ (d.transform = .none ∨ absent = .missing)

theorem isMatch_null_iff : d.isMatch (.plain .null) = true ↔ d.equals = some .null := by
  unfold isMatch
  cases d.equals with
  | none => simp [Interpreted.isTruthy, Json.isTruthy]
  | some expected => cases expected <;> simp [BEq.beq, Json.equal]

theorem isMatch_of_absent {absent : Interpreted} (h : absent.isAbsent = true) : d.isMatch absent = false := by
  unfold isMatch
  cases absent with
  | missing => cases d.equals <;> rfl
  | failed => cases d.equals <;> rfl
  | _ => cases h

theorem annotate_of_absent {absent : Interpreted} (h : absent.isAbsent = true) :
    d.annotate absent =
      if d.emit = true then .guard .null d.invert else if d.splay = true then .fanout [] else absent := by
  unfold annotate
  rw [isMatch_of_absent h, Bool.false_bne, Interpreted.payload_of_absent h]
  cases absent with
  | missing => cases d.flatten <;> rfl
  | failed => cases d.flatten <;> rfl
  | _ => cases h

theorem annotate_null :
    d.annotate (.plain .null) =
      if d.emit = true then .guard .null (d.isMatch (.plain .null) != d.invert)
      else if d.splay = true then .fanout [] else .plain .null := by
  unfold annotate
  cases d.flatten <;> rfl

/-- In place of an absent value `null` gives the same, unless the descriptor tells them apart. -/
theorem apply_null_eq_iff (h : d.isPassthrough = false) {absent : Interpreted}
    (habsent : absent.isAbsent = true) :
    d.apply options (.plain .null) = d.apply options absent ↔ ¬d.TellsFromNull absent := by
  rw [apply_eq_annotate h, apply_eq_annotate h, TellsFromNull]
  cases htransform : d.transform with
  | none =>
    rw [transformed_of_no_transform htransform, transformed_of_no_transform htransform,
      Interpreted.strip_of_absent habsent, annotate_of_absent habsent]
    show d.annotate (.plain .null) = _ ↔ _
    rw [annotate_null]
    cases d.emit with
    | true =>
      rw [← isMatch_null_iff]
      cases d.isMatch (.plain .null) <;> cases d.invert <;> simp
    | false =>
      cases d.splay with
      | true => simp
      | false =>
        have hne : Interpreted.plain .null ≠ absent := fun heq => by
          rw [← heq] at habsent
          cases habsent
        simp [hne]
  | some transform =>
    rw [transformed, transformed, htransform]
    show d.annotate (transform.apply options (.plain .null)) =
      d.annotate (transform.apply options absent) ↔ _
    rw [transform.apply_null, transform.apply_of_absent options habsent, annotate_of_absent rfl,
      annotate_of_absent habsent]
    cases d.emit with
    | true => simp
    | false =>
      cases d.splay with
      | true => simp
      | false =>
        cases absent with
        | missing => simp
        | failed => simp
        | _ => cases habsent

end Descriptor

/-! ### Patterns -/

/-- **Around an annotation.** Let the inner of two descriptors set `emit` or `flatten`, without a transform and
`splay`, and the outer one anything. They give what the outer one gives alone, unless the inner one is a guard
on an absent value and the outer one tells that from `null`. Around a guard on an absent value the outer
descriptor gives what it gives for `null`. -/
theorem Pattern.interpret_around_annotation {inner outer : Descriptor} (htransform : inner.transform = none)
    (hsplay : inner.splay = false) (houter : outer.isPassthrough = false) (pattern : Pattern)
    (options : Options) (document : Json) :
    (((pattern.access inner).access outer).interpret options document =
        (pattern.access outer).interpret options document ↔
      ¬(inner.emit = true ∧ (pattern.interpret options document).isAbsent = true ∧
        outer.TellsFromNull (pattern.interpret options document))) ∧
    (inner.emit = true → (pattern.interpret options document).isAbsent = true →
      ((pattern.access inner).access outer).interpret options document =
        outer.apply options (.plain .null)) := by
  simp only [interpret]
  rw [← Descriptor.apply_strip houter (inner.apply options _), Descriptor.strip_apply htransform hsplay]
  split
  · rename_i hguard
    rw [Descriptor.apply_null_eq_iff houter hguard.2]
    exact ⟨not_congr ⟨fun h => ⟨hguard.1, hguard.2, h⟩, fun h => h.2.2⟩, fun _ _ => rfl⟩
  · rename_i hguard
    rw [Descriptor.apply_strip houter]
    exact ⟨iff_of_true rfl fun h => hguard ⟨h.1, h.2.1⟩, fun hemit habsent => absurd ⟨hemit, habsent⟩ hguard⟩

/-- The descriptor that sets `emit` alone. -/
def Descriptor.guard : Descriptor := { Descriptor.none with emit := true }

/-- A guard that lets `null` through. -/
def Descriptor.nullGuard : Descriptor := { Descriptor.guard with equals := some .null }

/-- A document of one member. -/
def untitled : Json := .obj [("title", .null)]

/-- A guard behind another lets a `null` through as it does alone, and so it is with a missing value behind
`flatten`; a missing value behind a guard is `null` to it. -/
theorem interpret_untitled :
    (((Pattern.path ⟨"title"⟩).access .guard).access .nullGuard).interpret .default untitled =
        .guard .null true ∧
      (((Pattern.path ⟨"name"⟩).access { Descriptor.none with flatten := true }).access .nullGuard).interpret
          .default untitled = .guard .null false ∧
      (((Pattern.path ⟨"name"⟩).access .guard).access .nullGuard).interpret .default untitled =
        .guard .null true := by
  obtain ⟨htitle, -⟩ := @Pattern.interpret_around_annotation .guard .nullGuard rfl rfl rfl (.path ⟨"title"⟩) .default
    untitled
  obtain ⟨hname, -⟩ := @Pattern.interpret_around_annotation { Descriptor.none with flatten := true }
    .nullGuard rfl rfl rfl (.path ⟨"name"⟩) .default untitled
  obtain ⟨-, hguard⟩ := @Pattern.interpret_around_annotation .guard .nullGuard rfl rfl rfl (.path ⟨"name"⟩) .default
    untitled
  refine ⟨(htitle.mpr fun h => ?_).trans rfl, (hname.mpr fun h => ?_).trans rfl, (hguard rfl rfl).trans rfl⟩
  · exact Bool.false_ne_true h.2.1
  · exact Bool.false_ne_true h.1

/-- A guard for `null` refuses a missing value, and lets it through behind another guard. -/
theorem interpret_null_behind_guard :
    ((Pattern.path ⟨"a"⟩).access .nullGuard).interpret .default (.obj []) = .guard .null false ∧
      (((Pattern.path ⟨"a"⟩).access .guard).access .nullGuard).interpret .default (.obj []) =
        .guard .null true :=
  ⟨rfl, rfl⟩

end DocIndex
