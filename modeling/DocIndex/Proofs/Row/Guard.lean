import DocIndex.Proofs.Row.Product

/-!
# Guards in a key

A guard in a composite key decides whether a document has rows, and nothing else. With the guard the
rows are those of the key without it, in their order, or none; with the inverted guard it is the other
way round; and of all guards in a key it matters only which ones there are (`guards_partition`).
-/

namespace DocIndex

/-! ### Patterns that are guards -/

/-- Whether a pattern gives a guard, which it does on every document or on none: the outermost
descriptor that does anything sets `emit`. -/
def Pattern.isGuard : Pattern → Bool
  | path _ => false
  | access inner d => d.emit || d.isPassthrough && inner.isGuard

namespace Descriptor

/-- Whether the test of a descriptor lets a document through. -/
def passes (d : Descriptor) (options : Options) (document : Json) (inner : Pattern) : Bool :=
  d.isMatch (d.transformed options (inner.interpret options document)) != d.invert

/-- The descriptor with its test turned around. -/
def inverted (d : Descriptor) : Descriptor := { d with invert := !d.invert }

theorem passes_inverted (d : Descriptor) (options : Options) (document : Json) (inner : Pattern) :
    d.inverted.passes options document inner = !d.passes options document inner := by
  have hmatch : d.inverted.isMatch = d.isMatch := rfl
  have hvalue : d.inverted.transformed = d.transformed := rfl
  simp only [passes, hmatch, hvalue]
  show (_ != !d.invert) = !(_ != d.invert)
  rw [Bool.bne_not]

theorem isPassthrough_of_emit {d : Descriptor} (h : d.emit = true) : d.isPassthrough = false := by
  simp [isPassthrough, h]

/-- The transformed value has lost the annotation that an inner descriptor gave it. -/
theorem isGuard_transformed (d : Descriptor) (options : Options) (input : Interpreted) :
    (d.transformed options input).isGuard = false := by
  unfold transformed
  split
  · unfold Transform.apply
    split
    · cases input with
      | guard value passes => contradiction
      | _ => rfl
    · split <;> rfl
  · cases input <;> rfl

/-- Of the annotations only that of `emit` makes a guard. -/
theorem isGuard_annotate (d : Descriptor) {value : Interpreted} (h : value.isGuard = false) :
    (d.annotate value).isGuard = d.emit := by
  unfold annotate
  split
  · rename_i hemit
    exact hemit.symm
  · rename_i hemit
    rw [Bool.not_eq_true] at hemit
    rw [hemit]
    split
    · unfold splayed
      split <;> rfl
    · split
      · unfold flattened
        split
        · rfl
        · exact h
      · exact h

end Descriptor

theorem Pattern.isGuard_interpret (options : Options) (document : Json) (pattern : Pattern) :
    (pattern.interpret options document).isGuard = pattern.isGuard := by
  induction pattern with
  | path p =>
    rw [interpret, isGuard]
    cases p.resolve document <;> rfl
  | access inner d ih =>
    rw [interpret, isGuard, Descriptor.apply]
    split
    · rename_i hpass
      have hemit : d.emit = false := by
        cases hd : d.emit with
        | false => rfl
        | true => rw [Descriptor.isPassthrough_of_emit hd] at hpass; cases hpass
      rw [ih, hpass, hemit, Bool.true_and, Bool.false_or]
    · rename_i hpass
      rw [Bool.not_eq_true] at hpass
      rw [d.isGuard_annotate (d.isGuard_transformed options _), hpass, Bool.false_and, Bool.or_false]

/-- A descriptor that sets `emit` gives a guard, which passes as the test says. -/
theorem Pattern.interpret_of_emit {d : Descriptor} (h : d.emit = true) (options : Options)
    (document : Json) (inner : Pattern) :
    (Pattern.access inner d).interpret options document =
      .guard (d.transformed options (inner.interpret options document)).payload
        (d.passes options document inner) := by
  rw [interpret, Descriptor.apply, Descriptor.isPassthrough_of_emit h, if_neg Bool.false_ne_true,
    Descriptor.annotate, if_pos h]
  rfl

/-! ### Keys -/

namespace InterpretedKey

theorem isGuard_of_isFailingGuard {part : Interpreted} (h : isFailingGuard part = true) :
    part.isGuard = true := by
  cases part with
  | guard value passes => rfl
  | _ => cases h

/-- A guard put into a key keeps its keys or takes them all away. -/
theorem compositeKeys_insert (before after : List Interpreted) (value : Json) (passes : Bool) :
    compositeKeys (before ++ .guard value passes :: after) =
      if passes = true then compositeKeys (before ++ after) else [] := by
  have hfails : isFailingGuard (.guard value passes) = !passes := rfl
  have hguard : (Interpreted.guard value passes).isGuard = true := rfl
  unfold compositeKeys
  rw [List.any_append, List.any_cons, hfails]
  cases passes with
  | false => simp
  | true =>
    rw [if_pos rfl, List.any_append, List.foldl_append, List.foldl_cons, extend_guard hguard,
      List.foldl_append]
    simp

/-- Keys whose parts without the guards are the same, and in which the same guards fail. -/
theorem compositeKeys_congr {parts others : List Interpreted}
    (hparts : parts.filter (fun part => !part.isGuard) = others.filter fun part => !part.isGuard)
    (hfails : parts.any isFailingGuard = others.any isFailingGuard) :
    compositeKeys parts = compositeKeys others := by
  rw [compositeKeys, compositeKeys, hfails, ← foldl_extend_filter parts, hparts, foldl_extend_filter]

end InterpretedKey

/-! ### Rows -/

section

variable (options : Options) (document : Json) (value : Option Pattern) (reduce : Option Json)

/-- The rows with a guard are those without it if it passes, and none if it fails. -/
theorem View.rows_insert_guard {d : Descriptor} (h : d.emit = true) (inner : Pattern)
    (before after : List Pattern) :
    View.rows ⟨.composite (before ++ .access inner d :: after), value, reduce⟩ options document =
      if d.passes options document inner = true then
        View.rows ⟨.composite (before ++ after), value, reduce⟩ options document
      else [] := by
  simp only [View.rows, DocIndex.rows, KeyPattern.interpret, InterpretedKey.keys, List.map_append,
    List.map_cons, Pattern.interpret_of_emit h, InterpretedKey.compositeKeys_insert]
  split <;> rfl

/-- Keys with the same guards, and the same other parts in the same order, give the same rows. -/
theorem View.rows_of_same_guards {parts others : List Pattern}
    (hparts : parts.filter (fun part => !part.isGuard) = others.filter fun part => !part.isGuard)
    (hguards : ∀ part, part.isGuard = true → (part ∈ parts ↔ part ∈ others)) :
    View.rows ⟨.composite parts, value, reduce⟩ options document =
      View.rows ⟨.composite others, value, reduce⟩ options document := by
  have hkept : ∀ list : List Pattern,
      (list.map (Pattern.interpret options document)).filter (fun part => !part.isGuard) =
        (list.filter fun part => !part.isGuard).map (Pattern.interpret options document) := by
    intro list
    rw [List.filter_map]
    simp only [Function.comp_def, Pattern.isGuard_interpret]
  have hfails : (parts.map (Pattern.interpret options document)).any InterpretedKey.isFailingGuard =
      (others.map (Pattern.interpret options document)).any InterpretedKey.isFailingGuard := by
    rw [Bool.eq_iff_iff, List.any_map, List.any_map, List.any_eq_true, List.any_eq_true]
    -- a part that fails is a guard, so that it stands in both keys
    have hboth : ∀ part, InterpretedKey.isFailingGuard (part.interpret options document) = true →
        (part ∈ parts ↔ part ∈ others) := fun part hfail =>
      hguards part (Pattern.isGuard_interpret options document part ▸
        InterpretedKey.isGuard_of_isFailingGuard hfail)
    constructor
    · rintro ⟨part, hmem, hfail⟩
      exact ⟨part, (hboth part hfail).mp hmem, hfail⟩
    · rintro ⟨part, hmem, hfail⟩
      exact ⟨part, (hboth part hfail).mpr hmem, hfail⟩
  simp only [View.rows, DocIndex.rows, KeyPattern.interpret, InterpretedKey.keys]
  rw [InterpretedKey.compositeKeys_congr (by rw [hkept, hkept, hparts]) hfails]

end

/-- **A guard and its inversion partition the documents.** Put a descriptor that sets `emit` anywhere
into a composite key. If its test lets the document through, the rows are those of the key without it,
and with the inverted descriptor there are none; if not, it is the other way round. Which of the two
holds is up to the descriptor, the document and the options. Nor does it matter where the guards of a
key stand among its parts, or how often. -/
theorem guards_partition (options : Options) (document : Json) (value : Option Pattern)
    (reduce : Option Json) :
    (∀ (inner : Pattern) (d : Descriptor) (before after : List Pattern), d.emit = true →
      View.rows ⟨.composite (before ++ .access inner d :: after), value, reduce⟩ options document =
        (if d.passes options document inner = true then
          View.rows ⟨.composite (before ++ after), value, reduce⟩ options document
        else []) ∧
      View.rows ⟨.composite (before ++ .access inner d.inverted :: after), value, reduce⟩ options document =
        (if d.passes options document inner = true then []
        else View.rows ⟨.composite (before ++ after), value, reduce⟩ options document)) ∧
    ∀ parts others : List Pattern,
      parts.filter (fun part => !part.isGuard) = others.filter (fun part => !part.isGuard) →
      (∀ part, part.isGuard = true → (part ∈ parts ↔ part ∈ others)) →
      View.rows ⟨.composite parts, value, reduce⟩ options document =
        View.rows ⟨.composite others, value, reduce⟩ options document := by
  refine ⟨fun inner d before after hemit => ⟨?_, ?_⟩, fun parts others hparts hguards => ?_⟩
  · exact View.rows_insert_guard options document value reduce hemit inner before after
  · have hinverted : d.inverted.emit = true := hemit
    rw [View.rows_insert_guard options document value reduce hinverted inner before after,
      d.passes_inverted]
    cases d.passes options document inner <;> rfl
  · exact View.rows_of_same_guards options document value reduce hparts hguards

/-- The descriptor of a guard for posts. -/
def postsOnly : Descriptor := { Descriptor.none with emit := true, equals := some (.str "post") }

/-- A post with two tags. -/
def taggedPost : Json := .obj [("kind", .str "post"), ("tags", .arr [.str "x", .str "y"])]

/-- The tags of a document, one key for each. -/
def tagParts : List Pattern := [.access (.path ⟨"tags"⟩) { Descriptor.none with splay := true }]

/-- The guard before the tags keeps the two rows of a post, behind them and twice as well, and the
inverted guard takes them away. -/
theorem rows_taggedPost :
    (View.rows ⟨.composite tagParts, none, none⟩ .default taggedPost).length = 2 ∧
      View.rows ⟨.composite (.access (.path ⟨"kind"⟩) postsOnly :: tagParts), none, none⟩ .default
          taggedPost = View.rows ⟨.composite tagParts, none, none⟩ .default taggedPost ∧
      View.rows ⟨.composite (.access (.path ⟨"kind"⟩) postsOnly.inverted :: tagParts), none, none⟩ .default
          taggedPost = [] ∧
      View.rows ⟨.composite (.access (.path ⟨"kind"⟩) postsOnly :: tagParts), none, none⟩ .default
          taggedPost =
        View.rows ⟨.composite (.access (.path ⟨"kind"⟩) postsOnly :: tagParts ++
          [.access (.path ⟨"kind"⟩) postsOnly]), none, none⟩ .default taggedPost := by
  have hpasses : postsOnly.passes .default taggedPost (.path ⟨"kind"⟩) = true := by decide +kernel
  obtain ⟨hinsert, hsame⟩ := guards_partition .default taggedPost none none
  obtain ⟨hguard, hinverted⟩ := hinsert (.path ⟨"kind"⟩) postsOnly [] tagParts rfl
  rw [if_pos hpasses] at hguard hinverted
  refine ⟨by decide +kernel, hguard, hinverted, hsame _ _ rfl fun part _ => ?_⟩
  simp only [List.mem_cons, List.mem_append, List.cons_append, List.not_mem_nil, or_false]
  tauto

end DocIndex
