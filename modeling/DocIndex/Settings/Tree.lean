import DocIndex.Dict
import DocIndex.Settings.Value

/-!
# Trees of settings

What the sources of settings say, as a tree of tables and lists with values at its leaves. Names
are kept in small letters. A table that is put where there is one already adds to it, member by
member; anything else takes the place of what was there.
-/

namespace DocIndex

/-- Settings before it is known which of them a run takes. -/
inductive SettingTree where
  /-- Nothing; it fills a list up to an element that was put behind its end. -/
  | blank
  /-- A value. -/
  | leaf (value : SettingValue)
  /-- A list. -/
  | list (items : List SettingTree)
  /-- A table. -/
  | table (members : List (String × SettingTree))
  deriving Inhabited

namespace SettingTree

/-! ### Parts -/

/-- The members of a table; anything else has none. -/
def members : SettingTree → List (String × SettingTree)
  | table members => members
  | _ => []

/-- The items of a list; anything else has none. -/
def items : SettingTree → List SettingTree
  | list items => items
  | _ => []

/-- The member of a table. -/
def member? (name : String) (tree : SettingTree) : Option SettingTree :=
  Dict.find? name tree.members

/-- The text that a value converts to. -/
def text? : SettingTree → Option String
  | leaf value => some value.asText
  | _ => none

/-- The truth value that a value converts to. -/
def truth? : SettingTree → Option Bool
  | leaf value => value.asBool?
  | _ => none

/-! ### Merging -/

mutual

/-- Puts a tree at a name; a tree that is no table becomes one. -/
def put (tree : SettingTree) (name : String) : SettingTree → SettingTree
  | table incoming =>
    let name := Text.lowercase name
    let target := (tree.member? name).getD (table [])
    table (Dict.insert name (putAll target incoming) tree.members)
  | incoming => table (Dict.insert (Text.lowercase name) incoming tree.members)
termination_by structural incoming => incoming

/-- Puts every member of a table at its name. -/
def putAll (tree : SettingTree) : List (String × SettingTree) → SettingTree
  | [] => tree
  | (name, incoming) :: rest => putAll (put tree name incoming) rest
termination_by structural incoming => incoming

end

@[simp] theorem putAll_nil (tree : SettingTree) : putAll tree [] = tree := rfl

/-- A value that is put at a name is found there. -/
theorem member?_put_leaf (tree : SettingTree) (name : String) (content : SettingValue) :
    (tree.put name (leaf content)).member? (Text.lowercase name) = some (leaf content) := by
  simp [put, member?, members, Dict.find?_insert_self]

end SettingTree

end DocIndex
