import DocIndex.Proofs.Dict
import DocIndex.Settings.Path

/-!
# Values in trees of settings

A value that is put at a path is found there (`value?_putAt?_self`). Whatever is put at a path, the values
at paths that part from it stay (`value?_putAt?_of_apart`), also where a list is made longer, as the blanks at
its end are no values. Of the settings that are laid over a tree one after the other, the one that spells
a path therefore decides what is found there, if the others part from it (`value?_overlay?`).
-/

namespace DocIndex.SettingTree

/-! ### Looking up -/

/-- The tree that a step leads to. -/
def part? (tree : SettingTree) : SettingStep → Option SettingTree
  | .member name => tree.member? (Text.lowercase name)
  | .element index => (place? tree.items.length index).bind fun place => tree.items[place]?

/-- The value that a path leads to. -/
def value? : SettingPath → SettingTree → Option SettingValue
  | [], leaf content => some content
  | [], _ => none
  | step :: path, tree => (tree.part? step).bind (value? path)

@[simp] theorem value?_cons (step : SettingStep) (path : SettingPath) (tree : SettingTree) :
    tree.value? (step :: path) = (tree.part? step).bind (value? path) := rfl

theorem value?_blank (path : SettingPath) : blank.value? path = none := by
  cases path with
  | nil => rfl
  | cons step path => cases step <;> simp [part?, member?, members, items]

theorem value?_getD_blank (tree : Option SettingTree) (path : SettingPath) :
    (tree.getD blank).value? path = tree.bind (value? path) := by
  cases tree with
  | none => exact value?_blank path
  | some tree => rfl

/-! ### Places -/

/-- A list that is stretched for a place has the place at the same index. -/
theorem place?_stretch {items : List SettingTree} {index : Int} {place : Nat}
    (h : place? items.length index = some place) : place? (stretch items place).length index = some place := by
  have hlength := lt_length_stretch items place
  have hstretch : (stretch items place).length = items.length + (place + 1 - items.length) := by simp [stretch]
  unfold place? at h ⊢
  split at h
  · rename_i hforward
    rwa [if_pos hforward]
  · rename_i hback
    rw [if_neg hback]
    split at h
    · obtain rfl := Option.some.inj h
      rw [hstretch, if_pos (by omega)]
      congr 1
      omega
    · cases h

/-- Two indices that are counted from the same end mean different places. -/
theorem place?_inj {length place : Nat} {index other : Int} (hsign : 0 ≤ index ↔ 0 ≤ other)
    (hindex : place? length index = some place) (hother : place? length other = some place) : index = other := by
  unfold place? at hindex hother
  split at hindex <;> split at hother <;> simp_all <;> omega

/-- The places of other indices do not change with the length of the list. -/
theorem place?_stretch_of_ne {items : List SettingTree} {index other : Int} {place : Nat}
    (hsign : 0 ≤ index ↔ 0 ≤ other) (h : place? items.length index = some place) :
    place? (stretch items place).length other = place? items.length other := by
  have hstretch : (stretch items place).length = items.length + (place + 1 - items.length) := by simp [stretch]
  unfold place? at h ⊢
  by_cases hforward : 0 ≤ other
  · rw [if_pos hforward, if_pos hforward]
  · rw [if_neg (mt hsign.mp hforward)] at h
    split at h
    · obtain rfl := Option.some.inj h
      rw [hstretch, show items.length - index.natAbs + 1 - items.length = 0 by omega]
      rfl
    · cases h

/-- The blanks that stretch a list are no values. -/
theorem getElem?_stretch_bind (items : List SettingTree) (place index : Nat) (path : SettingPath) :
    (stretch items place)[index]?.bind (value? path) = items[index]?.bind (value? path) := by
  rw [stretch, List.getElem?_append]
  split
  · rfl
  · rename_i hindex
    rw [List.getElem?_eq_none (Nat.le_of_not_lt hindex), List.getElem?_replicate]
    split
    · exact value?_blank path
    · rfl

/-! ### Putting -/

/-- **A value that is put at a path is found there.** -/
theorem value?_putAt?_self {content : SettingValue} {path : SettingPath} {tree new : SettingTree}
    (h : putAt? (leaf content) path tree = some new) : new.value? path = some content := by
  induction path generalizing tree new with
  | nil =>
    obtain rfl := Option.some.inj h
    rfl
  | cons step path ih =>
    cases step with
    | member name =>
      cases path with
      | nil =>
        obtain rfl := Option.some.inj h
        rw [value?_cons, part?, member?_put_leaf]
        rfl
      | cons next path =>
        obtain ⟨inner, hinner, rfl⟩ := Option.map_eq_some_iff.mp h
        rw [value?_cons, part?, member?, members, Dict.find?_insert_self]
        exact ih hinner
    | element index =>
      obtain ⟨place, hplace, hput⟩ := Option.bind_eq_some_iff.mp h
      obtain ⟨inner, hinner, rfl⟩ := Option.map_eq_some_iff.mp hput
      rw [value?_cons, part?, items, List.length_set, place?_stretch hplace, Option.bind_some,
        List.getElem?_set_self (lt_length_stretch _ _)]
      exact ih hinner

/-- Paths that part from each other at a step. Two positions that are counted from different ends of a list
may be the same. -/
def Apart : SettingPath → SettingPath → Prop
  | .member name :: path, .member other :: others =>
    Text.lowercase name ≠ Text.lowercase other ∨ Apart path others
  | .element index :: path, .element other :: others =>
    ((0 ≤ index ↔ 0 ≤ other) ∧ index ≠ other) ∨ (index = other ∧ Apart path others)
  | _, _ => False

theorem member?_put_of_ne {name key : String} (h : key ≠ Text.lowercase name) (tree incoming : SettingTree) :
    (tree.put name incoming).member? key = tree.member? key := by
  cases incoming <;> exact Dict.find?_insert_of_ne h _ _

/-- **What is put at a path leaves the values at other paths.** -/
theorem value?_putAt?_of_apart {incoming : SettingTree} {path others : SettingPath} {tree new : SettingTree}
    (hapart : Apart path others) (h : putAt? incoming path tree = some new) :
    new.value? others = tree.value? others := by
  induction path generalizing others tree new with
  | nil => cases hapart
  | cons step path ih =>
    cases others with
    | nil => cases step <;> cases hapart
    | cons other others =>
      cases step with
      | member name =>
        cases other with
        | element other => cases hapart
        | member other =>
          rw [value?_cons, value?_cons, part?, part?]
          cases path with
          | nil =>
            obtain rfl := Option.some.inj h
            rw [member?_put_of_ne (hapart.resolve_right id).symm]
          | cons next path =>
            obtain ⟨inner, hinner, rfl⟩ := Option.map_eq_some_iff.mp h
            by_cases hname : Text.lowercase other = Text.lowercase name
            · rw [hname, member?, members, Dict.find?_insert_self, Option.bind_some,
                ih (hapart.resolve_left (not_not_intro hname.symm)) hinner, value?_getD_blank]
            · rw [member?, members, Dict.find?_insert_of_ne hname]
              rfl
      | element index =>
        cases other with
        | member other => cases hapart
        | element other =>
          obtain ⟨place, hplace, hput⟩ := Option.bind_eq_some_iff.mp h
          obtain ⟨inner, hinner, rfl⟩ := Option.map_eq_some_iff.mp hput
          rw [value?_cons, value?_cons, part?, part?, items, List.length_set]
          rcases hapart with ⟨hsign, hne⟩ | ⟨rfl, hapart⟩
          · rw [place?_stretch_of_ne hsign hplace]
            cases hother : place? tree.items.length other with
            | none => rfl
            | some spot =>
              have hspot : place ≠ spot := by
                rintro rfl
                exact hne (place?_inj hsign hplace hother)
              rw [Option.bind_some, Option.bind_some, List.getElem?_set_ne hspot, getElem?_stretch_bind]
          · rw [place?_stretch hplace, hplace, Option.bind_some, Option.bind_some,
              List.getElem?_set_self (lt_length_stretch _ _), Option.bind_some, ih hapart hinner,
              value?_getD_blank, getElem?_stretch_bind]

/-- A path whose positions are counted from the start always has a place, as lists are made longer. -/
theorem isSome_putAt? {path : SettingPath}
    (h : ∀ index : Int, .element index ∈ path → 0 ≤ index ∧ index < lengthLimit) (incoming tree : SettingTree) :
    (putAt? incoming path tree).isSome := by
  induction path generalizing tree with
  | nil => rfl
  | cons step path ih =>
    have hrest := ih fun index hmem => h index (List.mem_cons_of_mem _ hmem)
    cases step with
    | member name =>
      cases path with
      | nil => rfl
      | cons next path =>
        show (Option.map _ (putAt? incoming (next :: path) _)).isSome = true
        rw [Option.isSome_map]
        exact hrest _
    | element index =>
      obtain ⟨hforward, hlimit⟩ := h index List.mem_cons_self
      obtain ⟨place, rfl⟩ := Int.eq_ofNat_of_zero_le hforward
      rw [putAt?, place?_of_lt (Int.ofNat_lt.mp hlimit), Option.bind_some, Option.isSome_map]
      exact hrest _

/-! ### Laying settings over a tree -/

theorem value?_overlay?_of_apart {members : List (String × SettingTree)} {path : SettingPath}
    (hapart : ∀ member ∈ members, Apart (SettingPath.ofText member.1) path) {tree new : SettingTree}
    (h : overlay? tree members = some new) : new.value? path = tree.value? path := by
  induction members generalizing tree with
  | nil =>
    obtain rfl := Option.some.inj h
    rfl
  | cons member members ih =>
    rw [overlay?, List.foldlM_cons] at h
    obtain ⟨next, hnext, hrest⟩ := Option.bind_eq_some_iff.mp h
    rw [ih (fun other hmem => hapart other (List.mem_cons_of_mem _ hmem)) hrest,
      value?_putAt?_of_apart (hapart member List.mem_cons_self) hnext]

/-- **The setting that spells a path decides** what is found there, if all others part from it. -/
theorem value?_overlay? {members : List (String × SettingTree)} (hsorted : Dict.Sorted members) {text : String}
    (hapart : ∀ member ∈ members, member.1 ≠ text →
      Apart (SettingPath.ofText member.1) (SettingPath.ofText text))
    (hleaves : ∀ member ∈ members, ∃ content, member.2 = leaf content) {tree new : SettingTree}
    (h : overlay? tree members = some new) :
    new.value? (SettingPath.ofText text) =
      ((Dict.find? text members).bind (value? [])).or (tree.value? (SettingPath.ofText text)) := by
  cases hfind : Dict.find? text members with
  | none =>
    refine value?_overlay?_of_apart (fun member hmem => hapart member hmem ?_) h
    rintro rfl
    rw [hsorted.find?_eq_some_iff.mpr hmem] at hfind
    cases hfind
  | some found =>
    obtain ⟨content, rfl⟩ := hleaves _ (Dict.mem_of_find? hfind)
    obtain ⟨before, behind, rfl⟩ := List.append_of_mem (Dict.mem_of_find? hfind)
    have hbehind : ∀ member ∈ behind, member.1 ≠ text := fun member hmem =>
      (Dict.key_ne_of_precedes (List.rel_of_pairwise_cons (List.pairwise_append.mp hsorted).2.1 hmem)).symm
    rw [overlay?, List.foldlM_append] at h
    obtain ⟨between, -, hrest⟩ := Option.bind_eq_some_iff.mp h
    rw [List.foldlM_cons] at hrest
    obtain ⟨next, hnext, hrest⟩ := Option.bind_eq_some_iff.mp hrest
    rw [value?_overlay?_of_apart (fun member hmem => hapart member
      (List.mem_append_right _ (List.mem_cons_of_mem _ hmem)) (hbehind member hmem)) hrest,
      value?_putAt?_self hnext]
    rfl

end DocIndex.SettingTree
