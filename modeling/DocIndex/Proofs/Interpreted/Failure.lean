import DocIndex.Row

/-!
# Failed transforms

What a pattern gives tells a failed transform from a missing value, but no row does. The interpreter is
taken with any outcome in place of the failed one (`Pattern.interpretWith`). With a missing value there, a
pattern gives what it gives otherwise, the marks of failure taken off (`Pattern.interpretWith_missing`), and
rows do not look at the mark (`View.rowsWith_eq_rows`).
-/

namespace DocIndex

/-! ### The mark of failure -/

namespace Interpreted

/-- The outcome with a missing value in place of a failed transform. -/
def unmarked : Interpreted → Interpreted
  | failed => missing
  | value => value

theorem unmarked_ofResolved (value : Option Json) : (ofResolved value).unmarked = ofResolved value := by
  cases value <;> rfl

theorem isAbsent_unmarked (value : Interpreted) : value.unmarked.isAbsent = value.isAbsent := by
  cases value <;> rfl

theorem payload_unmarked (value : Interpreted) : value.unmarked.payload = value.payload := by
  cases value <;> rfl

theorem strip_unmarked (value : Interpreted) : value.unmarked.strip = value.strip.unmarked := by
  cases value <;> rfl

end Interpreted

/-! ### The interpreter with another outcome for a failed transform -/

/-- The outcome of a transform, with `failure` for a value that is there and cannot be read. -/
def Transform.applyWith (failure : Interpreted) (transform : Transform) (options : Options)
    (input : Interpreted) : Interpreted :=
  if input.isAbsent then input
  else
    match transform.onValue? options input.payload with
    | some value => .plain value
    | none => failure

namespace Descriptor

/-- The value that a descriptor's annotation applies to. -/
def transformedWith (failure : Interpreted) (d : Descriptor) (options : Options) (input : Interpreted) :
    Interpreted :=
  match d.transform with
  | some transform => transform.applyWith failure options input
  | .none => input.strip

/-- What a descriptor makes of the outcome inside it. -/
def applyWith (failure : Interpreted) (d : Descriptor) (options : Options) (input : Interpreted) :
    Interpreted :=
  if d.isPassthrough then input else d.annotate (d.transformedWith failure options input)

end Descriptor

/-- What a pattern gives on a document. -/
def Pattern.interpretWith (failure : Interpreted) (options : Options) (document : Json) :
    Pattern → Interpreted
  | path p => Interpreted.ofResolved (p.resolve document)
  | access inner descriptor =>
    descriptor.applyWith failure options (inner.interpretWith failure options document)

/-- What a key pattern gives on a document. -/
def KeyPattern.interpretWith (failure : Interpreted) (options : Options) (document : Json) :
    KeyPattern → InterpretedKey
  | single pattern => .single (pattern.interpretWith failure options document)
  | composite parts => .composite (parts.map (Pattern.interpretWith failure options document))

/-- The rows that a view gives on a document. -/
def View.rowsWith (failure : Interpreted) (view : View) (options : Options) (document : Json) :
    List Row :=
  DocIndex.rows (view.key.interpretWith failure options document)
    (view.value.map (Pattern.interpretWith failure options document))

/-- The interpreter is the one with the failed outcome. -/
theorem Pattern.interpretWith_failed (options : Options) (document : Json) :
    Pattern.interpretWith .failed options document = Pattern.interpret options document := by
  funext pattern
  induction pattern with
  | path p => rfl
  | access inner d ih =>
    rw [interpretWith, interpret, ih]
    rfl

theorem KeyPattern.interpretWith_failed (options : Options) (document : Json) (key : KeyPattern) :
    key.interpretWith .failed options document = key.interpret options document := by
  cases key with
  | single pattern => rw [interpretWith, interpret, Pattern.interpretWith_failed]
  | composite parts => rw [interpretWith, interpret, Pattern.interpretWith_failed]

/-! ### A missing value for a failed transform -/

section

variable (options : Options)

theorem Transform.applyWith_missing (transform : Transform) (input : Interpreted) :
    transform.applyWith .missing options input.unmarked = (transform.apply options input).unmarked := by
  rw [applyWith, apply, Interpreted.isAbsent_unmarked, Interpreted.payload_unmarked]
  split
  · rfl
  · cases transform.onValue? options input.payload <;> rfl

namespace Descriptor

theorem isMatch_unmarked (d : Descriptor) (value : Interpreted) :
    d.isMatch value.unmarked = d.isMatch value := by
  unfold isMatch
  cases d.equals <;> cases value <;> rfl

theorem splayed_unmarked (value : Interpreted) : splayed value.unmarked = (splayed value).unmarked := by
  unfold splayed
  cases value with
  | plain json => cases json <;> rfl
  | _ => rfl

theorem flattened_unmarked (value : Interpreted) :
    flattened value.unmarked = (flattened value).unmarked := by
  cases value with
  | plain json =>
    show flattened (.plain json) = _
    unfold flattened
    split <;> rfl
  | _ => rfl

/-- An annotation is as blind to the mark as what it looks at: the test, the items and the payload. -/
theorem annotate_unmarked (d : Descriptor) (value : Interpreted) :
    d.annotate value.unmarked = (d.annotate value).unmarked := by
  unfold annotate
  rw [isMatch_unmarked, Interpreted.payload_unmarked, splayed_unmarked, flattened_unmarked]
  repeat' split
  all_goals rfl

theorem transformedWith_missing (d : Descriptor) (input : Interpreted) :
    d.transformedWith .missing options input.unmarked = (d.transformed options input).unmarked := by
  unfold transformedWith transformed
  cases d.transform with
  | none => exact input.strip_unmarked
  | some transform => exact transform.applyWith_missing options input

theorem applyWith_missing (d : Descriptor) (input : Interpreted) :
    d.applyWith .missing options input.unmarked = (d.apply options input).unmarked := by
  unfold applyWith apply
  split
  · rfl
  · rw [transformedWith_missing, annotate_unmarked]

end Descriptor

/-- Whatever descriptors are around a path, a missing value in place of a failed one leaves the outcome
as it is, but for the mark. -/
theorem Pattern.interpretWith_missing (document : Json) :
    Pattern.interpretWith .missing options document =
      fun pattern => (pattern.interpret options document).unmarked := by
  funext pattern
  induction pattern with
  | path p => exact (Interpreted.unmarked_ofResolved _).symm
  | access inner d ih => rw [interpretWith, interpret, ih, Descriptor.applyWith_missing]

end

/-! ### Rows -/

namespace InterpretedKey

/-- The key without the marks of failure. -/
def unmarked : InterpretedKey → InterpretedKey
  | single key => .single key.unmarked
  | composite parts => .composite (parts.map Interpreted.unmarked)

theorem isFailingGuard_unmarked (part : Interpreted) :
    isFailingGuard part.unmarked = isFailingGuard part := by
  cases part <;> rfl

theorem extend_unmarked (keys : List (List Json)) (part : Interpreted) :
    extend keys part.unmarked = extend keys part := by
  cases part <;> rfl

theorem keys_unmarked (key : InterpretedKey) : key.unmarked.keys = key.keys := by
  cases key with
  | single key => cases key <;> rfl
  | composite parts =>
    show compositeKeys (parts.map Interpreted.unmarked) = compositeKeys parts
    simp only [compositeKeys, List.any_map, List.foldl_map, Function.comp_def, isFailingGuard_unmarked,
      extend_unmarked]

end InterpretedKey

theorem rowValues_unmarked (value : Option Interpreted) :
    rowValues (value.map Interpreted.unmarked) = rowValues value := by
  cases value with
  | none => rfl
  | some value => cases value <;> rfl

theorem KeyPattern.interpretWith_missing (options : Options) (document : Json) (key : KeyPattern) :
    key.interpretWith .missing options document = (key.interpret options document).unmarked := by
  cases key with
  | single pattern => rw [interpretWith, interpret, Pattern.interpretWith_missing, InterpretedKey.unmarked]
  | composite parts =>
    rw [interpretWith, interpret, Pattern.interpretWith_missing, InterpretedKey.unmarked, List.map_map]
    rfl

/-- **No row tells a failed transform from a missing value.** Let the interpreter give some outcome for a
value that a transform cannot read. With the failed outcome its rows are those of the view. With a missing
value they are the same rows in the same order, since each pattern gives what it gave before, with missing
in place of failed. -/
theorem View.rowsWith_eq_rows (view : View) (options : Options) (document : Json) :
    view.rowsWith .failed options document = view.rows options document ∧
      view.rowsWith .missing options document = view.rows options document ∧
      ∀ pattern : Pattern,
        pattern.interpretWith .missing options document = (pattern.interpret options document).unmarked := by
  refine ⟨?_, ?_, congrFun (Pattern.interpretWith_missing options document)⟩
  · rw [rowsWith, rows, KeyPattern.interpretWith_failed, Pattern.interpretWith_failed]
  · have hvalue : view.value.map (Pattern.interpretWith .missing options document) =
        (view.value.map (Pattern.interpret options document)).map Interpreted.unmarked := by
      rw [Pattern.interpretWith_missing, Option.map_map]
      rfl
    rw [rowsWith, rows, KeyPattern.interpretWith_missing, hvalue, DocIndex.rows, DocIndex.rows,
      InterpretedKey.keys_unmarked, rowValues_unmarked]

/-- A key whose transform failed is `null` in every row. -/
theorem View.rows_of_failed {view : View} {inner : Pattern} {d : Descriptor} {transform : Transform}
    {options : Options} {document : Json} (hkey : view.key = .single (.access inner d))
    (htransform : d.transform = some transform) (hemit : d.emit = false) (hsplay : d.splay = false)
    (hfailed : transform.apply options (inner.interpret options document) = .failed) :
    view.rows options document =
      (rowValues (view.value.map (Pattern.interpret options document))).map (Row.mk .null) := by
  have hinterpret : (Pattern.access inner d).interpret options document = .failed := by
    have hpassthrough : d.isPassthrough = false := by simp [Descriptor.isPassthrough, htransform]
    rw [Pattern.interpret, Descriptor.apply, hpassthrough, Descriptor.transformed, htransform]
    dsimp only
    rw [hfailed, Descriptor.annotate, hemit, hsplay]
    cases d.flatten <;> rfl
  rw [View.rows, hkey, KeyPattern.interpret, hinterpret]
  exact List.append_nil _

end DocIndex
