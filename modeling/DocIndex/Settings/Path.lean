import DocIndex.Settings.Tree

/-!
# Paths of settings

A path leads from the top of a tree of settings to a place in it, by the names of members and the
positions of elements: `store.path`, `levels[0]`, `levels[ -1 ]`. What stands in the way of a path
gives way to a table or a list. A list is made longer for a position behind its end, but no list
has a place before its first element.
-/

namespace DocIndex

/-- A step of a path. -/
inductive SettingStep where
  /-- To the member with a name. -/
  | member (name : String)
  /-- To the element at a position, which is counted from the end if it is negative. -/
  | element (index : Int)
  deriving DecidableEq

/-- A path, from the top of the tree. -/
abbrev SettingPath := List SettingStep

namespace SettingPath

/-! ### Reading -/

/-- Whether a character may stand in a name. -/
def isNameChar (c : Char) : Bool := (Text.isWordChar c && c != '\'') || c == ' '

/-- A name and what follows it. -/
def readName (text : List Char) : Option (SettingStep × List Char) :=
  match text.takeWhile isNameChar with
  | [] => none
  | name => some (.member (String.ofList name), text.dropWhile isNameChar)

/-- Whether a character may stand around a position. -/
def isGap (c : Char) : Bool := c == ' ' || c == '\t'

/-- A position behind its opening bracket, and what follows the closing one. -/
def readIndex (text : List Char) : Option (SettingStep × List Char) := do
  let text := text.dropWhile isGap
  let (negative, text) :=
    match text with
    | '-' :: text => (true, text)
    | text => (false, text)
  let index ← SettingValue.signed? negative (text.takeWhile Text.isDigit)
  match (text.dropWhile Text.isDigit).dropWhile isGap with
  | ']' :: rest => return (.element index, rest)
  | _ => none

/-- The steps after a name, at most `fuel` of them. -/
def readSteps : Nat → List Char → Option SettingPath
  | _, [] => some []
  | 0, _ => none
  | fuel + 1, '.' :: text =>
    match readName text with
    | none => none
    | some (step, rest) => (readSteps fuel rest).map (step :: ·)
  | fuel + 1, '[' :: text =>
    match readIndex text with
    | none => none
    | some (step, rest) => (readSteps fuel rest).map (step :: ·)
  | _, _ => none

/-- The path that a text spells. -/
def parse? (text : String) : Option SettingPath := do
  let (step, rest) ← readName text.toList
  return step :: (← readSteps rest.length rest)

/-- The path that a text spells, or else the member that has the whole text as its name. -/
def ofText (text : String) : SettingPath := (parse? text).getD [.member text]

end SettingPath

namespace SettingTree

/-- How many elements a list has room for. -/
def lengthLimit : Nat := 10000000

/-- The place in a list that an index means. There is none before the first element, and none that
a list has no room for. -/
def place? (length : Nat) (index : Int) : Option Nat :=
  if 0 ≤ index then (if index < lengthLimit then some index.toNat else none)
  else if index.natAbs ≤ length then some (length - index.natAbs)
  else none

/-- A list with blanks at its end, so that there is an element at a place. -/
def stretch (items : List SettingTree) (place : Nat) : List SettingTree :=
  items ++ List.replicate (place + 1 - items.length) blank

/-- Puts a tree at a path, if there is a place for every element on it. -/
def putAt? (incoming : SettingTree) : SettingPath → SettingTree → Option SettingTree
  | [], _ => some incoming
  | [.member name], tree => some (tree.put name incoming)
  | .member name :: path, tree =>
    let name := Text.lowercase name
    (putAt? incoming path ((tree.member? name).getD blank)).map fun inner =>
      table (Dict.insert name inner tree.members)
  | .element index :: path, tree =>
    (place? tree.items.length index).bind fun place =>
      let items := stretch tree.items place
      (putAt? incoming path (items[place]?.getD blank)).map fun inner =>
        list (items.set place inner)

/-- Puts every member of a table at the path that its name spells. -/
def overlay? (tree : SettingTree) (members : List (String × SettingTree)) : Option SettingTree :=
  members.foldlM (fun tree member => putAt? member.2 (SettingPath.ofText member.1) tree) tree

/-! ### Places -/

/-- An index that is not negative is its own place, however long the list is. -/
theorem place?_of_lt {place : Nat} (h : place < lengthLimit) (length : Nat) :
    place? length place = some place := by
  have h' : (place : Int) < lengthLimit := by exact_mod_cast h
  simp [place?, h']

/-- A stretched list has an element at the place. -/
theorem lt_length_stretch (items : List SettingTree) (place : Nat) :
    place < (stretch items place).length := by
  simp [stretch]
  omega

end SettingTree

end DocIndex
