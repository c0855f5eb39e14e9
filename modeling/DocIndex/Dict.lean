/-!
# Dictionaries

Finite maps from text, as lists of bindings in ascending order of their keys. The order of keys
is that of their code points, which is also the order of their UTF-8 bytes. The members of a JSON
object, the documents of a store and the views of a design document are all kept in this form,
so that listing a dictionary needs no sorting and two equal dictionaries are the same list.
-/

namespace DocIndex

universe u

/-- Whether one text comes strictly before another in the order of code points. -/
def precedes : List Char → List Char → Bool
  | [], [] => false
  | [], _ :: _ => true
  | _ :: _, [] => false
  | a :: as, b :: bs => Nat.blt a.toNat b.toNat || (a == b && precedes as bs)

namespace Dict

variable {α : Type u}

/-- The value bound to a key. -/
def find? (key : String) : List (String × α) → Option α
  | [] => none
  | (k, v) :: rest => if k = key then some v else find? key rest

/-- Whether a key is bound. -/
def contains (key : String) (bindings : List (String × α)) : Bool :=
  (find? key bindings).isSome

/-- Binds a key, in place of any binding that it had, and keeps the keys in order. -/
def insert (key : String) (value : α) : List (String × α) → List (String × α)
  | [] => [(key, value)]
  | (k, v) :: rest =>
    if k = key then (key, value) :: rest
    else if precedes key.toList k.toList then (key, value) :: (k, v) :: rest
    else (k, v) :: insert key value rest

/-- Removes every binding of a key. -/
def erase (key : String) (bindings : List (String × α)) : List (String × α) :=
  bindings.filter fun binding => binding.1 != key

/-- The bound keys, in order. -/
def keys (bindings : List (String × α)) : List String :=
  bindings.map Prod.fst

/-- The dictionary of a list of bindings; of two bindings of one key the later counts. -/
def ofList (bindings : List (String × α)) : List (String × α) :=
  bindings.foldl (fun dict binding => insert binding.1 binding.2 dict) []

/-! ### Look-up after an update -/

@[simp] theorem find?_nil (key : String) : find? key ([] : List (String × α)) = none := rfl

theorem find?_insert_self (key : String) (value : α) (bindings : List (String × α)) :
    find? key (insert key value bindings) = some value := by
  induction bindings with
  | nil => simp [insert, find?]
  | cons binding rest ih =>
    obtain ⟨k, v⟩ := binding
    unfold insert
    split
    · simp [find?]
    · split
      · simp [find?]
      · rename_i hk _
        simp [find?, hk, ih]

theorem find?_insert_of_ne {key other : String} (h : other ≠ key) (value : α)
    (bindings : List (String × α)) :
    find? other (insert key value bindings) = find? other bindings := by
  induction bindings with
  | nil => simp [insert, find?, Ne.symm h]
  | cons binding rest ih =>
    obtain ⟨k, v⟩ := binding
    unfold insert
    split
    · rename_i hk
      subst hk
      simp [find?, Ne.symm h]
    · split
      · simp [find?, Ne.symm h]
      · simp [find?, ih]

theorem find?_erase_self (key : String) (bindings : List (String × α)) :
    find? key (erase key bindings) = none := by
  induction bindings with
  | nil => rfl
  | cons binding rest ih =>
    obtain ⟨k, v⟩ := binding
    by_cases hk : k = key
    · simpa [erase, hk] using ih
    · simpa [erase, hk, find?] using ih

theorem find?_erase_of_ne {key other : String} (h : other ≠ key) (bindings : List (String × α)) :
    find? other (erase key bindings) = find? other bindings := by
  induction bindings with
  | nil => rfl
  | cons binding rest ih =>
    obtain ⟨k, v⟩ := binding
    by_cases hk : k = key
    · subst hk
      simpa [erase, find?, Ne.symm h] using ih
    · by_cases ho : k = other
      · subst ho
        simp [erase, hk, find?]
      · simpa [erase, hk, find?, ho] using ih

end Dict

end DocIndex
