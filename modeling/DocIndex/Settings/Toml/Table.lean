import DocIndex.Dict
import DocIndex.Settings.Toml.Text
import DocIndex.Settings.Value

/-!
# Tables of settings files

What a TOML text builds, and what may still be added to each of its tables. A table is written out
by a header or an inline table, or it comes to be because a header or a dotted key leads through
it. A header may write out a table once; a dotted key may go on in tables that dotted keys made;
nothing is added to an inline table. The members of a table stand in the order in which they came
to be, and a table that a header leads through comes to stand behind the others when it is written
out.
-/

namespace DocIndex.Toml

/-- How a table came to be. -/
inductive Opening where
  /-- It was written out by a header. -/
  | written
  /-- It was written out as an inline table, which nothing can be added to. -/
  | closed
  /-- A header leads through it. -/
  | implied
  /-- A dotted key leads through it. -/
  | dotted
  deriving DecidableEq

/-- What stands at a name or in an array. -/
inductive Node where
  /-- A string, a number or a truth value. -/
  | leaf (value : SettingValue)
  /-- A date or a time, by its text in one form. -/
  | date (text : String)
  /-- An array. -/
  | array (items : List Node)
  /-- A table. -/
  | table (opening : Opening) (members : List (String × Node))
  /-- A row of tables, of which things are added to the last. -/
  | tables (earlier : List (List (String × Node))) (last : List (String × Node))

/-- The members of a table. -/
abbrev Table := List (String × Node)

namespace Table

/-- Binds a name, in the place of its binding or else behind all the others. -/
def set (name : String) (node : Node) : Table → Table
  | [] => [(name, node)]
  | (other, bound) :: rest =>
    if other = name then (name, node) :: rest else (other, bound) :: set name node rest

/-- A change to the members of a table that came to be in some way. -/
abbrev Change := Opening → Table → Option Table

/-- Makes a change to the table that a path leads to. The path of a dotted key makes dotted tables
and does not lead through one that is written out; that of a header makes implied tables. -/
def changeAt (isDotted : Bool) (change : Change) : Key → Change
  | [], opening, members => change opening members
  | name :: path, _, members =>
    match Dict.find? name members with
    | none =>
      let opening := if isDotted then .dotted else .implied
      (changeAt isDotted change path opening []).map fun inner =>
        set name (.table opening inner) members
    | some (.table opening inner) =>
      if opening = .closed ∨ (isDotted ∧ opening = .written) then none
      else
        (changeAt isDotted change path opening inner).map fun inner =>
          set name (.table opening inner) members
    | some (.tables earlier last) =>
      (changeAt isDotted change path .written last).map fun last =>
        set name (.tables earlier last) members
    | some _ => none

/-- Binds a name that is not bound yet. -/
def bindNew (name : String) (node : Node) (members : Table) : Option Table :=
  if Dict.contains name members then none else some (set name node members)

/-- Binds a key to a value. A name alone goes into a table that no dotted key made, a dotted key
into one that a dotted key made. -/
def bind (key : Key) (node : Node) : Change :=
  let path := key.dropLast
  changeAt (!path.isEmpty) (fun opening members =>
    if decide (opening = .dotted) = path.isEmpty then none
    else bindNew (key.getLast?.getD "") node members) path

/-- Writes out the table of a header. -/
def openTable (key : Key) : Change :=
  let name := key.getLast?.getD ""
  changeAt false (fun _ members =>
    match Dict.find? name members with
    | none => some (set name (.table .written []) members)
    | some (.table .implied inner) =>
      some (set name (.table .written inner) (Dict.erase name members))
    | some _ => none) key.dropLast

/-- Adds a table to the row of a header. -/
def openNext (key : Key) : Change :=
  let name := key.getLast?.getD ""
  changeAt false (fun _ members =>
    match Dict.find? name members with
    | none => some (set name (.tables [] []) members)
    | some (.tables earlier last) => some (set name (.tables (last :: earlier) []) members)
    | some _ => none) key.dropLast

/-! ### Look-up after an update -/

theorem find?_set_self (name : String) (node : Node) (members : Table) :
    Dict.find? name (set name node members) = some node := by
  induction members with
  | nil => simp [set, Dict.find?]
  | cons binding rest ih =>
    obtain ⟨other, bound⟩ := binding
    unfold set
    split <;> simp_all [Dict.find?]

theorem find?_set_of_ne {name other : String} (h : other ≠ name) (node : Node) (members : Table) :
    Dict.find? other (set name node members) = Dict.find? other members := by
  induction members with
  | nil => simp [set, Dict.find?, Ne.symm h]
  | cons binding rest ih =>
    obtain ⟨k, bound⟩ := binding
    unfold set
    split
    · rename_i hk
      subst hk
      simp [Dict.find?, Ne.symm h]
    · simp [Dict.find?, ih]

/-- A name that is bound cannot be bound anew. -/
theorem bindNew_eq_none {name : String} {members : Table} (h : Dict.contains name members)
    (node : Node) : bindNew name node members = none := by
  simp [bindNew, h]

end Table

end DocIndex.Toml
