import DocIndex.Proofs.Dict
import DocIndex.Proofs.Json.Numeral

/-!
# What holds everywhere in a value

Tests of a JSON value that all values inside it have to pass as well. `wellFormed` is what the type of
a value promises by itself: the members of every object are in order, and every integer is one that a
JSON number holds. `doublesReadBack` says that every double is read back from its own text, which not
every double is.
-/

namespace DocIndex.Json

/-! ### Tests everywhere -/

mutual

/-- Whether a value and every value inside it pass a test. -/
def everywhere (test : Json → Bool) : Json → Bool
  | arr items => test (arr items) && everywhereItems test items
  | obj members => test (obj members) && everywhereMembers test members
  | null => test null
  | bool value => test (bool value)
  | num number => test (num number)
  | str text => test (str text)
termination_by structural x => x

/-- Whether every item passes the test everywhere. -/
def everywhereItems (test : Json → Bool) : List Json → Bool
  | [] => true
  | x :: xs => everywhere test x && everywhereItems test xs
termination_by structural xs => xs

/-- Whether every member passes the test everywhere. -/
def everywhereMembers (test : Json → Bool) : List (String × Json) → Bool
  | [] => true
  | (_, x) :: xs => everywhere test x && everywhereMembers test xs
termination_by structural xs => xs

end

variable {test : Json → Bool}

theorem everywhereItems_eq_all (items : List Json) :
    everywhereItems test items = items.all (everywhere test) := by
  induction items with
  | nil => rfl
  | cons x xs ih => rw [everywhereItems, ih, List.all_cons]

theorem everywhereMembers_eq_all (members : List (String × Json)) :
    everywhereMembers test members = members.all fun member => everywhere test member.2 := by
  induction members with
  | nil => rfl
  | cons member members ih => rw [everywhereMembers, ih, List.all_cons]

theorem everywhere_arr_iff {items : List Json} : everywhere test (arr items) = true ↔
    test (arr items) = true ∧ ∀ x ∈ items, everywhere test x = true := by
  rw [everywhere, everywhereItems_eq_all, Bool.and_eq_true, List.all_eq_true]

theorem everywhere_obj_iff {members : List (String × Json)} : everywhere test (obj members) = true ↔
    test (obj members) = true ∧ ∀ member ∈ members, everywhere test member.2 = true := by
  rw [everywhere, everywhereMembers_eq_all, Bool.and_eq_true, List.all_eq_true]

/-! ### Well-formed values -/

/-- Whether the members of a value are in order, and an integer in range. -/
def isOrderly : Json → Bool
  | obj members => decide (Dict.Sorted members)
  | num (.int n) => Number.inIntegerRange n
  | _ => true

/-- Whether a value is one that its type allows. -/
def wellFormed : Json → Bool := everywhere isOrderly

/-- Whether a value is not a double, or one that is read back from its text. -/
def isReadBackDouble : Json → Bool
  | num (.double x) => (Number.double x).isReadBack
  | _ => true

/-- Whether every double in a value is read back from its text. -/
def doublesReadBack : Json → Bool := everywhere isReadBackDouble

theorem wellFormed_obj_iff {members : List (String × Json)} : wellFormed (obj members) = true ↔
    Dict.Sorted members ∧ ∀ member ∈ members, member.2.wellFormed = true := by
  rw [wellFormed, everywhere_obj_iff, isOrderly, decide_eq_true_iff]

theorem wellFormed_arr_iff {items : List Json} :
    wellFormed (arr items) = true ↔ ∀ x ∈ items, x.wellFormed = true := by
  rw [wellFormed, everywhere_arr_iff]
  exact and_iff_right rfl

/-! ### Depth -/

theorem depthItems_le_iff {items : List Json} {limit : Nat} :
    depthItems items ≤ limit ↔ ∀ x ∈ items, x.depth ≤ limit := by
  induction items with
  | nil => simp [depthItems]
  | cons x xs ih => rw [depthItems, Nat.max_le, ih, List.forall_mem_cons]

theorem depthMembers_le_iff {members : List (String × Json)} {limit : Nat} :
    depthMembers members ≤ limit ↔ ∀ member ∈ members, member.2.depth ≤ limit := by
  induction members with
  | nil => simp [depthMembers]
  | cons member members ih =>
    obtain ⟨key, x⟩ := member
    rw [depthMembers, Nat.max_le, ih, List.forall_mem_cons]

end DocIndex.Json
