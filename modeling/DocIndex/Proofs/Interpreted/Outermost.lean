import DocIndex.Proofs.Interpreted.Nesting

/-!
# The outermost descriptor

What shape an outcome has is decided by one descriptor, the outermost one that sets anything
(`Pattern.outermost?`). The descriptors around it let its outcome through as it is (`Pattern.interpret_within`),
and what is inside it comes without its annotation, so that the shape is read off the descriptor and the value
after its transform (`Descriptor.annotate_cases`), whatever the inner pattern is (`Pattern.shape_of_outermost`).
-/

namespace DocIndex

/-! ### Shapes -/

namespace Interpreted

/-- What an outcome does to the rows. -/
inductive Shape where
  /-- Nothing: it is a value, a missing value or a failed transform. -/
  | bare
  /-- It multiplies them. -/
  | fanout
  /-- It keeps or drops them. -/
  | guard
  /-- It lengthens their key. -/
  | flattenable
  deriving DecidableEq

/-- The shape of an outcome. -/
def shape : Interpreted → Shape
  | plain _ | missing | failed => .bare
  | fanout _ => .fanout
  | guard _ _ => .guard
  | flattenable _ => .flattenable

/-- Whether an outcome is an array with at least one item. -/
def isFilledArray : Interpreted → Bool
  | plain (.arr (_ :: _)) => true
  | _ => false

theorem shape_strip (value : Interpreted) : value.strip.shape = .bare := by
  cases value <;> rfl

theorem eq_failed_of_strip {value : Interpreted} (h : value.strip = .failed) : value = .failed := by
  cases value with
  | failed => rfl
  | _ => cases h

end Interpreted

/-! ### One descriptor -/

namespace Descriptor

theorem splayed_eq_fanout (value : Interpreted) : ∃ items, splayed value = .fanout items := by
  unfold splayed
  split
  · exact ⟨_, rfl⟩
  · exact ⟨_, rfl⟩

theorem flattened_cases (value : Interpreted) :
    (value.isFilledArray = true ∧ ∃ item items, flattened value = .flattenable (item :: items)) ∨
      (value.isFilledArray = false ∧ flattened value = value) := by
  unfold flattened
  split
  · exact .inl ⟨rfl, _, _, rfl⟩
  · rename_i hnot
    refine .inr ⟨?_, rfl⟩
    unfold Interpreted.isFilledArray
    split
    · exact absurd rfl (hnot _ _)
    · rfl

variable (d : Descriptor)

/-- What an annotation makes of a value: a guard, a fan-out, key components, or the value itself. -/
theorem annotate_cases (value : Interpreted) :
    (d.emit = true ∧ ∃ passes, d.annotate value = .guard value.payload passes) ∨
      (d.emit = false ∧ d.splay = true ∧ ∃ items, d.annotate value = .fanout items) ∨
      (d.emit = false ∧ d.splay = false ∧ (d.flatten && value.isFilledArray) = true ∧
        ∃ item items, d.annotate value = .flattenable (item :: items)) ∨
      (d.emit = false ∧ d.splay = false ∧ (d.flatten && value.isFilledArray) = false ∧
        d.annotate value = value) := by
  unfold annotate
  cases d.emit with
  | true => exact .inl ⟨rfl, _, rfl⟩
  | false =>
    cases d.splay with
    | true => exact .inr (.inl ⟨rfl, rfl, splayed_eq_fanout value⟩)
    | false =>
      cases d.flatten with
      | false => exact .inr (.inr (.inr ⟨rfl, rfl, rfl, rfl⟩))
      | true =>
        rcases flattened_cases value with ⟨hfilled, hitems⟩ | ⟨hfilled, hvalue⟩
        · exact .inr (.inr (.inl ⟨rfl, rfl, hfilled, hitems⟩))
        · exact .inr (.inr (.inr ⟨rfl, rfl, hfilled, hvalue⟩))

/-- What an annotation sees has none itself. -/
theorem shape_transformed (options : Options) (input : Interpreted) :
    (d.transformed options input).shape = .bare := by
  unfold transformed
  cases d.transform with
  | none => exact input.shape_strip
  | some transform =>
    dsimp only
    rw [← transform.apply_strip, Transform.apply]
    split
    · exact input.shape_strip
    · cases transform.onValue? options input.strip.payload <;> rfl

theorem shape_annotate {value : Interpreted} (h : value.shape = .bare) :
    (d.annotate value).shape =
      if d.emit then .guard
      else if d.splay then .fanout
      else if d.flatten && value.isFilledArray then .flattenable
      else .bare := by
  rcases d.annotate_cases value with ⟨hemit, _, hvalue⟩ | ⟨hemit, hsplay, _, hvalue⟩ |
    ⟨hemit, hsplay, hflatten, _, _, hvalue⟩ | ⟨hemit, hsplay, hflatten, hvalue⟩
  · rw [hvalue, hemit]
    rfl
  · rw [hvalue, hemit, hsplay]
    rfl
  · rw [hvalue, hemit, hsplay, hflatten]
    rfl
  · rw [hvalue, hemit, hsplay, hflatten]
    exact h

theorem annotate_ne_nil {value : Interpreted} (h : value.shape = .bare) :
    d.annotate value ≠ .flattenable [] := by
  rcases d.annotate_cases value with ⟨-, _, hvalue⟩ | ⟨-, -, _, hvalue⟩ | ⟨-, -, -, _, _, hvalue⟩ |
    ⟨-, -, -, hvalue⟩
  · rw [hvalue]
    nofun
  · rw [hvalue]
    nofun
  · rw [hvalue]
    nofun
  · rw [hvalue]
    rintro rfl
    cases h

theorem eq_failed_of_annotate {value : Interpreted} (h : d.annotate value = .failed) : value = .failed := by
  rcases d.annotate_cases value with ⟨-, _, hvalue⟩ | ⟨-, -, _, hvalue⟩ | ⟨-, -, -, _, _, hvalue⟩ |
    ⟨-, -, -, hvalue⟩
  · cases hvalue.symm.trans h
  · cases hvalue.symm.trans h
  · cases hvalue.symm.trans h
  · exact hvalue.symm.trans h

theorem isPassthrough_iff : d.isPassthrough = true ↔
    d.transform = .none ∧ d.splay = false ∧ d.emit = false ∧ d.flatten = false := by
  simp [isPassthrough, and_assoc]

end Descriptor

/-! ### The descriptors of a pattern -/

namespace Pattern

/-- The path that a pattern starts from. -/
def start : Pattern → Path
  | path p => p
  | access inner _ => inner.start

/-- The descriptors around the path of a pattern, the outermost first. -/
def descriptors : Pattern → List Descriptor
  | path _ => []
  | access inner d => d :: inner.descriptors

/-- A pattern with further descriptors around it, the outermost last. -/
def within (pattern : Pattern) (ds : List Descriptor) : Pattern := ds.foldl access pattern

/-- The outermost descriptor of a pattern that sets anything, and the pattern inside it. -/
def outermost? : Pattern → Option (Pattern × Descriptor)
  | path _ => none
  | access inner d => if d.isPassthrough then inner.outermost? else some (inner, d)

theorem within_concat (pattern : Pattern) (ds : List Descriptor) (d : Descriptor) :
    pattern.within (ds ++ [d]) = (pattern.within ds).access d :=
  List.foldl_append

/-- What no single descriptor that sets nothing changes, several of them do not change either. -/
theorem apply_within {α : Type} {f : Pattern → α}
    (hf : ∀ (pattern : Pattern) (d : Descriptor), d.isPassthrough = true → f (pattern.access d) = f pattern)
    {ds : List Descriptor} (h : ∀ d ∈ ds, d.isPassthrough = true) (pattern : Pattern) :
    f (pattern.within ds) = f pattern := by
  induction ds generalizing pattern with
  | nil => rfl
  | cons d ds ih =>
    rw [List.forall_mem_cons] at h
    exact (ih h.2 (pattern.access d)).trans (hf pattern d h.1)

theorem outermost?_within {ds : List Descriptor} (h : ∀ d ∈ ds, d.isPassthrough = true) (pattern : Pattern) :
    (pattern.within ds).outermost? = pattern.outermost? :=
  apply_within (fun _ _ hd => if_pos hd) h pattern

/-- Around the outermost descriptor that sets anything there are only descriptors that set nothing. -/
theorem outermost?_eq_some_iff {pattern inner : Pattern} {d : Descriptor} :
    pattern.outermost? = some (inner, d) ↔ d.isPassthrough = false ∧
      ∃ ds : List Descriptor, (∀ e ∈ ds, e.isPassthrough = true) ∧ pattern = (inner.access d).within ds := by
  constructor
  · intro h
    induction pattern with
    | path p => cases h
    | access pattern e ih =>
      rw [outermost?] at h
      split at h
      · rename_i he
        obtain ⟨hd, ds, hds, rfl⟩ := ih h
        refine ⟨hd, ds ++ [e], fun e' hmem => ?_, (within_concat _ ds e).symm⟩
        rcases List.mem_append.mp hmem with hmem | hmem
        · exact hds e' hmem
        · exact List.mem_singleton.mp hmem ▸ he
      · rename_i he
        cases h
        exact ⟨Bool.eq_false_iff.mpr he, [], by simp, rfl⟩
  · rintro ⟨hd, ds, hds, rfl⟩
    rw [outermost?_within hds, outermost?, hd]
    rfl

theorem outermost?_eq_none_iff {pattern : Pattern} :
    pattern.outermost? = none ↔ ∀ d ∈ pattern.descriptors, d.isPassthrough = true := by
  induction pattern with
  | path p => simp [outermost?, descriptors]
  | access inner d ih =>
    rw [outermost?, descriptors, List.forall_mem_cons, ← ih]
    cases d.isPassthrough <;> simp

/-! ### The shape of an outcome -/

section

variable (options : Options) (document : Json)

/-- Descriptors that set nothing let the outcome through. -/
theorem interpret_within {ds : List Descriptor} (h : ∀ d ∈ ds, d.isPassthrough = true) (pattern : Pattern) :
    (pattern.within ds).interpret options document = pattern.interpret options document :=
  apply_within (fun _ _ hd => if_pos hd) h pattern

theorem interpret_of_outermost?_eq_some {pattern inner : Pattern} {d : Descriptor}
    (h : pattern.outermost? = some (inner, d)) : pattern.interpret options document =
      d.annotate (d.transformed options (inner.interpret options document)) := by
  obtain ⟨hd, ds, hds, rfl⟩ := outermost?_eq_some_iff.mp h
  rw [interpret_within options document hds, interpret, Descriptor.apply_eq_annotate hd]

theorem interpret_of_outermost?_eq_none {pattern : Pattern} (h : pattern.outermost? = none) :
    pattern.interpret options document = Interpreted.ofResolved (pattern.start.resolve document) := by
  induction pattern with
  | path p => rfl
  | access inner d ih =>
    rw [outermost?_eq_none_iff, descriptors, List.forall_mem_cons, ← outermost?_eq_none_iff] at h
    rw [interpret, Descriptor.apply, if_pos h.1, ih h.2, start]

theorem interpret_ne_nil (pattern : Pattern) : pattern.interpret options document ≠ .flattenable [] := by
  cases h : pattern.outermost? with
  | none =>
    rw [interpret_of_outermost?_eq_none options document h]
    cases pattern.start.resolve document <;> nofun
  | some outermost =>
    rw [interpret_of_outermost?_eq_some options document h]
    exact Descriptor.annotate_ne_nil _ (Descriptor.shape_transformed _ options _)

/-- A failed outcome comes from a transform. -/
theorem exists_transform_of_failed {pattern : Pattern} (h : pattern.interpret options document = .failed) :
    ∃ d ∈ pattern.descriptors, d.transform ≠ none := by
  induction pattern with
  | path p =>
    rw [interpret] at h
    cases hresolved : p.resolve document with
    | none =>
      rw [hresolved] at h
      cases h
    | some value =>
      rw [hresolved] at h
      cases h
  | access inner d ih =>
    by_cases htransform : d.transform = none
    · have hinner : inner.interpret options document = .failed := by
        cases hd : d.isPassthrough with
        | true => rwa [interpret, Descriptor.apply, if_pos hd] at h
        | false =>
          rw [interpret, Descriptor.apply_eq_annotate hd,
            Descriptor.transformed_of_no_transform htransform] at h
          exact Interpreted.eq_failed_of_strip (d.eq_failed_of_annotate h)
      obtain ⟨e, hmem, he⟩ := ih hinner
      exact ⟨e, List.mem_cons_of_mem d hmem, he⟩
    · exact ⟨d, List.mem_cons_self, htransform⟩

/-- **The outermost descriptor that sets anything decides the shape.** Descriptors without a transform and an
annotation, whatever they test for, change nothing around a pattern. The outermost other descriptor gives a guard
if it sets `emit`, else a fan-out if it sets `splay`, else key components exactly if it sets `flatten` and its
transform leaves an array with at least one item, else a value, a missing value or a failed transform. Without
such a descriptor the outcome is that of the path. So a key component is never lost to an empty `flatten`, and
nothing fails without a transform. -/
theorem shape_of_outermost (pattern : Pattern) :
    (∀ ds : List Descriptor,
      (∀ d ∈ ds, d.transform = none ∧ d.splay = false ∧ d.emit = false ∧ d.flatten = false) →
      (pattern.within ds).interpret options document = pattern.interpret options document) ∧
    (match pattern.outermost? with
      | some (inner, d) =>
        (pattern.interpret options document).shape =
          if d.emit then .guard
          else if d.splay then .fanout
          else if d.flatten && (d.transformed options (inner.interpret options document)).isFilledArray then
            .flattenable
          else .bare
      | none => pattern.interpret options document = Interpreted.ofResolved (pattern.start.resolve document)) ∧
    pattern.interpret options document ≠ .flattenable [] ∧
    (pattern.interpret options document = .failed → ∃ d ∈ pattern.descriptors, d.transform ≠ none) := by
  refine ⟨fun ds hds => ?_, ?_, interpret_ne_nil options document pattern,
    exists_transform_of_failed options document⟩
  · exact interpret_within options document (fun d hd => d.isPassthrough_iff.mpr (hds d hd)) pattern
  · split
    · rename_i h
      rw [interpret_of_outermost?_eq_some options document h]
      exact Descriptor.shape_annotate _ (Descriptor.shape_transformed _ options _)
    · rename_i h
      exact interpret_of_outermost?_eq_none options document h

end

/-- Tags one by one, in the key, behind two descriptors that set nothing but a test. -/
def testedTags : Pattern :=
  (((Pattern.path ⟨"tags"⟩).access { Descriptor.none with splay := true }).access
    { Descriptor.none with flatten := true }).within
      [{ Descriptor.none with equals := some .null }, { Descriptor.none with invert := true }]

/-- The `flatten` decides, not the `splay` inside it, and without tags there is an empty array. -/
theorem shape_testedTags :
    (testedTags.interpret .default (.obj [("tags", .arr [.str "a", .str "b"])])).shape = .flattenable ∧
      (testedTags.interpret .default (.obj [("tags", .arr [])])).shape = .bare ∧
      testedTags.interpret .default (.obj [("tags", .arr [])]) ≠ .failed := by
  obtain ⟨-, hfilled, -⟩ :=
    shape_of_outermost .default (.obj [("tags", .arr [.str "a", .str "b"])]) testedTags
  obtain ⟨-, hempty, -, hfailed⟩ := shape_of_outermost .default (.obj [("tags", .arr [])]) testedTags
  have hnone : ∀ d ∈ testedTags.descriptors, d.transform = none := by decide
  refine ⟨hfilled.trans (by decide), hempty.trans (by decide), fun h => ?_⟩
  obtain ⟨d, hd, htransform⟩ := hfailed h
  exact htransform (hnone d hd)

end Pattern

end DocIndex
