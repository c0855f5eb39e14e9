import DocIndex.Proofs.Number.MixedRadix
import DocIndex.Row

/-!
# Rows as an ordered product

The rows of a key and a value are the product of their fan-outs, in the order of the numbers that
count them: with one digit for each part of the key that is no guard, and the least significant digit
for the value, row `i` holds what the digits of `i` choose (`rows_eq_product`).
-/

namespace DocIndex

/-! ### What one digit chooses -/

namespace Interpreted

/-- How many rows a part makes of one. -/
def width : Interpreted → Nat
  | fanout items => items.length
  | _ => 1

/-- The value that a digit chooses: an item of a fan-out, or the payload of anything else. -/
def element : Interpreted → Nat → Json
  | fanout items, d => items.getD d .null
  | other, _ => other.payload

/-- The components that a digit chooses for a composite key: all items of a flattenable list, or the
one value. -/
def components : Interpreted → Nat → List Json
  | flattenable items, _ => items
  | part, d => [part.element d]

/-- Whether an outcome is a guard. -/
def isGuard : Interpreted → Bool
  | guard _ _ => true
  | _ => false

end Interpreted

namespace InterpretedKey

/-- Whether the key refuses the document, by a guard that fails. -/
def refuses : InterpretedKey → Bool
  | single key => isFailingGuard key
  | composite parts => parts.any isFailingGuard

/-- The parts that the digits belong to: a composite key loses its guards. -/
def positions : InterpretedKey → List Interpreted
  | single key => [key]
  | composite parts => parts.filter fun part => !part.isGuard

/-- The radices of the digits. -/
def widths (key : InterpretedKey) : List Nat := key.positions.map Interpreted.width

/-- The key that digits choose. -/
def keyAt (key : InterpretedKey) (digits : List Nat) : Json :=
  match key with
  | single part => part.element (digits.headD 0)
  | composite _ => .arr (List.zipWith Interpreted.components key.positions digits).flatten

end InterpretedKey

/-- How many rows the value makes of one. -/
def valueWidth : Option Interpreted → Nat
  | none => 1
  | some value => value.width

/-- The value that a digit chooses, `null` without a value. -/
def valueAt : Option Interpreted → Nat → Json
  | none, _ => .null
  | some value, d => value.element d

/-! ### Products of lists -/

/-- The product of two lists, the second varying fastest. -/
theorem getElem?_flatMap_map {α β γ : Type} (f : α → β → γ) (xs : List α) (ys : List β) (i : Nat) :
    (xs.flatMap fun x => ys.map (f x))[i]? =
      (xs[i / ys.length]?).bind fun x => (ys[i % ys.length]?).map (f x) := by
  rcases Nat.eq_zero_or_pos ys.length with hnil | hpos
  · rw [List.length_eq_zero_iff] at hnil
    subst hnil
    simp
  · induction xs generalizing i with
    | nil => simp
    | cons x xs ih =>
      rw [List.flatMap_cons, List.getElem?_append, List.length_map]
      split
      · rename_i hlt
        rw [Nat.div_eq_of_lt hlt, Nat.mod_eq_of_lt hlt]
        simp
      · rename_i hge
        rw [Nat.not_lt] at hge
        rw [ih, Nat.div_eq_sub_div hpos hge, Nat.mod_eq_sub_mod hge, List.getElem?_cons_succ]

theorem length_flatMap_map {α β γ : Type} (f : α → β → γ) (xs : List α) (ys : List β) :
    (xs.flatMap fun x => ys.map (f x)).length = xs.length * ys.length := by
  induction xs with
  | nil => simp
  | cons x xs ih =>
    rw [List.flatMap_cons, List.length_append, ih, List.length_map, List.length_cons]
    rw [Nat.succ_mul, Nat.add_comm]

/-! ### Keys -/

namespace InterpretedKey

theorem length_choices {part : Interpreted} (h : part.isGuard = false) :
    (choices part).length = part.width := by
  cases part with
  | fanout items => exact List.length_map ..
  | guard value passes => cases h
  | _ => rfl

theorem getElem?_choices {part : Interpreted} (h : part.isGuard = false) {d : Nat}
    (hd : d < part.width) : (choices part)[d]? = some (part.components d) := by
  cases part with
  | fanout items =>
    simp only [Interpreted.width] at hd
    simp [choices, Interpreted.components, Interpreted.element, List.getElem?_eq_getElem hd]
  | guard value passes => cases h
  | _ =>
    obtain rfl := Nat.lt_one_iff.mp hd
    rfl

/-- A guard in a composite key takes no part in it. -/
theorem extend_guard {part : Interpreted} (h : part.isGuard = true) (keys : List (List Json)) :
    extend keys part = keys := by
  cases part with
  | guard value passes => simp [extend, choices]
  | _ => cases h

theorem foldl_extend_filter (parts : List Interpreted) (keys : List (List Json)) :
    (parts.filter fun part => !part.isGuard).foldl extend keys = parts.foldl extend keys := by
  induction parts generalizing keys with
  | nil => rfl
  | cons part parts ih =>
    rw [List.filter_cons]
    by_cases h : part.isGuard = true
    · rw [if_neg (by simp [h]), List.foldl_cons, extend_guard h, ih]
    · rw [if_pos (by simp [h]), List.foldl_cons, List.foldl_cons, ih]

theorem length_foldl_extend {parts : List Interpreted} (h : ∀ part ∈ parts, part.isGuard = false)
    (keys : List (List Json)) :
    (parts.foldl extend keys).length = keys.length * (parts.map Interpreted.width).prod := by
  induction parts generalizing keys with
  | nil => simp
  | cons part parts ih =>
    rw [List.foldl_cons, ih (fun p hp => h p (List.mem_cons_of_mem part hp)), List.map_cons,
      List.prod_cons, extend, length_flatMap_map, length_choices (h part List.mem_cons_self),
      Nat.mul_assoc]

/-- The keys so far, each with what the digits of the parts choose behind it. -/
theorem getElem?_foldl_extend {parts : List Interpreted} (h : ∀ part ∈ parts, part.isGuard = false)
    (keys : List (List Json)) {i : Nat} (hi : i < keys.length * (parts.map Interpreted.width).prod) :
    (parts.foldl extend keys)[i]? =
      (keys[i / (parts.map Interpreted.width).prod]?).map fun key =>
        key ++ (List.zipWith Interpreted.components parts
          (MixedRadix.digits (parts.map Interpreted.width)
            (i % (parts.map Interpreted.width).prod))).flatten := by
  induction parts generalizing keys i with
  | nil => simp
  | cons part parts ih =>
    have hpart := h part List.mem_cons_self
    have hparts : ∀ p ∈ parts, p.isGuard = false := fun p hp => h p (List.mem_cons_of_mem part hp)
    rw [List.map_cons, List.prod_cons] at hi ⊢
    have hlength : (extend keys part).length = keys.length * part.width := by
      rw [extend, length_flatMap_map, length_choices hpart]
    rw [List.foldl_cons, ih hparts (extend keys part) (by rw [hlength, Nat.mul_assoc]; exact hi), extend,
      getElem?_flatMap_map, length_choices hpart]
    -- the digit of this part is what is left of `i` above the digits of the others
    have hpos : 0 < part.width := by
      rw [← Nat.mul_assoc, Nat.mul_right_comm] at hi
      exact MixedRadix.pos_of_lt_mul hi
    rw [getElem?_choices hpart (Nat.mod_lt _ hpos), MixedRadix.digits, Nat.mod_mul_left_div_self,
      Nat.mod_mul_left_mod, Nat.div_div_eq_div_mul, Nat.mul_comm part.width]
    cases keys[i / ((parts.map Interpreted.width).prod * part.width)]? <;> simp

theorem length_keys {key : InterpretedKey} (h : key.refuses = false) :
    key.keys.length = key.widths.prod := by
  cases key with
  | single part =>
    cases part with
    | guard value passes =>
      simp only [refuses, isFailingGuard, Bool.not_eq_false'] at h
      simp [keys, singleKeys, widths, positions, Interpreted.width, h]
    | _ => simp [keys, singleKeys, widths, positions, Interpreted.width]
  | composite parts =>
    simp only [refuses] at h
    simp only [keys, compositeKeys, h, Bool.false_eq_true, if_false, List.length_map, widths, positions]
    rw [← foldl_extend_filter, length_foldl_extend fun part hpart => by
      simpa using (List.mem_filter.mp hpart).2]
    simp

theorem getElem?_keys {key : InterpretedKey} (h : key.refuses = false) {i : Nat}
    (hi : i < key.widths.prod) :
    key.keys[i]? = some (key.keyAt (MixedRadix.digits key.widths i)) := by
  cases key with
  | single part =>
    simp only [widths, positions, List.map_cons, List.map_nil, List.prod_singleton] at hi
    cases part with
    | fanout items =>
      simp only [Interpreted.width] at hi
      simp [keys, singleKeys, keyAt, widths, positions, MixedRadix.digits, Interpreted.element,
        List.getElem?_eq_getElem hi]
    | guard value passes =>
      simp only [refuses, isFailingGuard, Bool.not_eq_false'] at h
      obtain rfl := Nat.lt_one_iff.mp hi
      simp [keys, singleKeys, keyAt, Interpreted.element, Interpreted.payload, h]
    | _ =>
      obtain rfl := Nat.lt_one_iff.mp hi
      simp [keys, singleKeys, keyAt, Interpreted.element]
  | composite parts =>
    simp only [refuses] at h
    have hparts : ∀ part ∈ parts.filter (fun part => !part.isGuard), part.isGuard = false :=
      fun part hpart => by simpa using (List.mem_filter.mp hpart).2
    simp only [widths, positions] at hi
    simp only [keys, compositeKeys, h, Bool.false_eq_true, if_false, List.getElem?_map, widths, positions,
      keyAt]
    rw [← foldl_extend_filter, getElem?_foldl_extend hparts [[]] (by simpa using hi),
      Nat.div_eq_of_lt hi, Nat.mod_eq_of_lt hi]
    simp

theorem keys_of_refuses {key : InterpretedKey} (h : key.refuses = true) : key.keys = [] := by
  cases key with
  | single part =>
    cases part with
    | guard value passes =>
      simp only [refuses, isFailingGuard, Bool.not_eq_true'] at h
      simp [keys, singleKeys, h]
    | _ => cases h
  | composite parts =>
    simp only [refuses] at h
    simp [keys, compositeKeys, h]

end InterpretedKey

/-! ### Rows -/

theorem length_rowValues (value : Option Interpreted) :
    (rowValues value).length = valueWidth value := by
  cases value with
  | none => rfl
  | some value => cases value <;> rfl

theorem getElem?_rowValues {value : Option Interpreted} {e : Nat} (h : e < valueWidth value) :
    (rowValues value)[e]? = some (valueAt value e) := by
  cases value with
  | none =>
    obtain rfl := Nat.lt_one_iff.mp h
    rfl
  | some value =>
    cases value with
    | fanout items =>
      simp only [valueWidth, Interpreted.width] at h
      simp [rowValues, valueAt, Interpreted.element, List.getElem?_eq_getElem h]
    | _ =>
      obtain rfl := Nat.lt_one_iff.mp h
      rfl

/-- **Rows are the ordered product.** A key with a failing guard has no rows. Otherwise there are as
many rows as the product of the widths of the key's parts and of the value, and row `i` holds what is
chosen by the digits that `i` has in these radices, the value's digit being the least significant. -/
theorem rows_eq_product (key : InterpretedKey) (value : Option Interpreted) :
    (key.refuses = true → rows key value = []) ∧
    (key.refuses = false →
      (rows key value).length = key.widths.prod * valueWidth value ∧
      ∀ i, i < key.widths.prod * valueWidth value → ∃ ds e,
        List.Forall₂ (· < ·) ds key.widths ∧ e < valueWidth value ∧
        MixedRadix.value key.widths ds * valueWidth value + e = i ∧
        (rows key value)[i]? = some ⟨key.keyAt ds, valueAt value e⟩) := by
  refine ⟨fun h => by simp [rows, InterpretedKey.keys_of_refuses h], fun h => ⟨?_, fun i hi => ?_⟩⟩
  · rw [rows, length_flatMap_map, InterpretedKey.length_keys h, length_rowValues]
  · have hpos := MixedRadix.pos_of_lt_mul hi
    have hkey : i / valueWidth value < key.widths.prod := (Nat.div_lt_iff_lt_mul hpos).mpr hi
    refine ⟨_, i % valueWidth value, MixedRadix.digits_lt hkey, Nat.mod_lt i hpos, ?_, ?_⟩
    · rw [MixedRadix.value_digits hkey, Nat.mul_comm]
      exact Nat.div_add_mod i _
    · rw [rows, getElem?_flatMap_map, length_rowValues, InterpretedKey.getElem?_keys h hkey,
        getElem?_rowValues (Nat.mod_lt i hpos)]
      rfl

/-- A key with a plain part, two fan-outs, a guard that passes and a list put into the key. -/
def productKey : InterpretedKey :=
  .composite [.plain (.str "a"), .fanout [.bool true, .bool false], .guard .null true,
    .flattenable [.str "b", .str "c"], .fanout [.str "x", .str "y", .str "z"]]

/-- The twelve rows of two, three and two choices, and the row that stands seventh among them. -/
theorem rows_productKey :
    (rows productKey (some (.fanout [.null, .str "v"]))).length = 12 ∧
    ∃ ds e, List.Forall₂ (· < ·) ds productKey.widths ∧ e < 2 ∧
      MixedRadix.value productKey.widths ds * 2 + e = 7 ∧
      (rows productKey (some (.fanout [.null, .str "v"])))[7]? =
        some ⟨productKey.keyAt ds, valueAt (some (.fanout [.null, .str "v"])) e⟩ := by
  have hproduct := (rows_eq_product productKey (some (.fanout [.null, .str "v"]))).2 (by decide)
  exact ⟨hproduct.1, hproduct.2 7 (by decide)⟩

end DocIndex
