import DocIndex.Settings.Toml.DateTime
import DocIndex.Settings.Toml.Table
import DocIndex.Settings.Tree

/-!
# Trees of settings files

The tree of settings that the tables of a TOML text give, with the members of each table in
ascending order. A table whose first member has the name of the date mark stands for the date or
time that the string at that name spells, whatever its other members are. A mark that no such
string belongs to spoils the whole text.
-/

namespace DocIndex.Toml

/-- The name of the member that makes a table stand for a date or time. -/
def dateMark : String := "$__toml_private_datetime"

/-- The tree of the date or time that the member with the date mark gives. -/
def markedDate? : Node → Option SettingTree
  | .leaf (.string text) =>
    (dateTimeOf? text.toList).map fun content => .leaf (.string (String.ofList content))
  | _ => none

mutual

/-- The tree of what stands at a name. -/
def Node.tree? : Node → Option SettingTree
  | .leaf value => some (.leaf value)
  | .date text => some (.leaf (.string text))
  | .array items => (treesOf? items).map .list
  | .table _ members => tableTree? members
  | .tables earlier last => do
    let last ← tableTree? last
    return .list ((← rowTrees? earlier).reverse ++ [last])
termination_by structural node => node

/-- The tree of a table with the given members. -/
def tableTree? : List (String × Node) → Option SettingTree
  | [] => some (.table [])
  | (name, node) :: rest =>
    if name = dateMark then markedDate? node
    else do
      let tree ← node.tree?
      return .table (Dict.insert name tree (← memberTrees? rest))
termination_by structural members => members

/-- The trees of the members that follow the first, in ascending order of their names. -/
def memberTrees? : List (String × Node) → Option (List (String × SettingTree))
  | [] => some []
  | (name, node) :: rest => do
    let tree ← node.tree?
    return Dict.insert name tree (← memberTrees? rest)
termination_by structural members => members

/-- The trees of the items of an array. -/
def treesOf? : List Node → Option (List SettingTree)
  | [] => some []
  | node :: rest => do
    let tree ← node.tree?
    return tree :: (← treesOf? rest)
termination_by structural items => items

/-- The trees of a row of tables. -/
def rowTrees? : List (List (String × Node)) → Option (List SettingTree)
  | [] => some []
  | members :: rest => do
    let tree ← tableTree? members
    return tree :: (← rowTrees? rest)
termination_by structural row => row

end

/-- The members of the tree of a whole text, which cannot stand for a date. -/
def rootMembers? (members : Table) : Option (List (String × SettingTree)) :=
  match tableTree? members with
  | some (.table members) => some members
  | _ => none

end DocIndex.Toml
