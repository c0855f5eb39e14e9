import DocIndex.Environment.File
import DocIndex.Settings.Basic
import DocIndex.Settings.Path
import DocIndex.Settings.Toml.Document
import DocIndex.Settings.Variables
import DocIndex.Store.FileSystem

/-!
# Loading settings

Where the settings of a run come from. A variable of the environment goes before one of the file
`.env`, both before the settings file and that before the default. The settings file is
`jsonviews.toml` if there is one, or a file that the run names, which then has to be there.
-/

namespace DocIndex

/-- Why settings cannot be loaded. -/
inductive LoadError where
  /-- A source of settings, or a value in it, cannot be read. -/
  | unreadable
  /-- A variable cannot be set, or a setting has no place to go to, which ends the run at once. -/
  | aborted
  deriving DecidableEq

namespace Settings

/-! ### The settings file -/

/-- Whether the last name of a path has something before `.toml`, which it ends in. -/
def isToml (path : String) : Bool :=
  match (FileSystem.namesOf path).getLast? with
  | some name => name.length > 5 && name.toList.reverse.take 5 == ['l', 'm', 'o', 't', '.']
  | none => false

/-- A path read backwards, without slashes and steps that stay at its end. -/
def dropEndSteps : List Char → List Char
  | '/' :: rest => dropEndSteps rest
  | '.' :: '/' :: rest => dropEndSteps rest
  | path => path

/-- A path with `.toml` behind its last name; there is none if it ends in no name of a file. -/
def withToml? (path : String) : Option String :=
  let path := String.ofList (dropEndSteps path.toList.reverse).reverse
  match (FileSystem.splitNames path.toList).getLast? with
  | none | some [] | some ['.'] | some ['.', '.'] => none
  | some _ => some (path ++ ".toml")

/-- The path of the settings file that a path means: the file itself, or the one with `.toml`
added. -/
def locate? (fs : FileSystem) (path : String) : Option String :=
  if fs.isFile path then (if isToml path then some path else none)
  else
    match withToml? path with
    | some path => if fs.isFile path then some path else none
    | none => none

/-- The text of the settings file that a path means. -/
def textAt? (fs : FileSystem) (path : String) : Option String :=
  match (locate? fs path).map fs.read with
  | some (.ok bytes) => String.fromUTF8? bytes
  | _ => none

/-- The members of the settings file. A file that the run names has to be a text; the one that is
looked for anyway need not be there. -/
def fileMembers? (fs : FileSystem) (named : Option String) :
    Option (List (String × SettingTree)) :=
  match textAt? fs (named.getD "jsonviews") with
  | some text => Toml.parse? text.toList
  | none => if named.isSome then none else some []

/-! ### The environment -/

/-- The bytes of the file `.env` in the working directory, or else in the nearest directory above
it that has one. -/
def environmentFile? (fs : FileSystem) : Option ByteArray :=
  (List.range (fs.height + 1)).findSome? fun steps =>
    match fs.read (FileSystem.above steps ++ ".env") with
    | .ok bytes => some bytes
    | .error _ => none

/-- The variables of the environment and of the file `.env`. -/
def variablesOf? (fs : FileSystem) (vars : Environment.Variables) :
    Option Environment.Variables :=
  match environmentFile? fs with
  | some bytes => Environment.addFile vars bytes.toList
  | none => some vars

/-! ### Settings -/

/-- The tree of the settings that hold unless others are given. -/
def defaultTree : SettingTree :=
  let value (content : SettingValue) := SettingTree.leaf content
  .table [
    ("compile", .table [("legacy_minute", value (.bool default.legacyMinute))]),
    ("logging", .table [("json", value (.bool default.json)),
      ("level", value (.string default.level))]),
    ("store", .table [("path", value (.string default.storePath))])]

/-- The tree of the given settings, which are first put together and then laid over the defaults,
if each of them has a place. -/
def treeOf? (file environment : List (String × SettingTree)) : Option SettingTree := do
  let given ← (SettingTree.table []).overlay? file
  let given ← given.overlay? environment
  defaultTree.overlay? given.members

/-- A part of a group of settings, which is a table or a list in the order of the settings. -/
def part? (name : String) (place : Nat) : SettingTree → Option SettingTree
  | .table members => Dict.find? name members
  | .list items => items[place]?
  | _ => none

/-- The setting that makes `minute` give the hour; a group without it has the default. -/
def legacyMinuteOf? (group : SettingTree) : Option Bool :=
  match group, part? "legacy_minute" 0 group with
  | _, some tree => tree.truth?
  | .table _, none | .list _, none => some default.legacyMinute
  | _, none => none

/-- The settings of a tree. -/
def ofTree? (tree : SettingTree) : Option Settings := do
  let logging ← tree.member? "logging"
  let store ← tree.member? "store"
  let compile ← tree.member? "compile"
  return {
    level := ← (part? "level" 0 logging).bind SettingTree.text?
    json := ← (part? "json" 1 logging).bind SettingTree.truth?
    storePath := ← (part? "path" 0 store).bind SettingTree.text?
    legacyMinute := ← legacyMinuteOf? compile }

/-- What is there, or else an error. -/
def orFail {α : Type} (error : LoadError) : Option α → Except LoadError α
  | some content => .ok content
  | none => .error error

/-- The settings of a run that may name a settings file. -/
def load (fs : FileSystem) (vars : Environment.Variables) (file : Option String) :
    Except LoadError Settings := do
  let vars ← orFail .aborted (variablesOf? fs vars)
  let members ← orFail .unreadable (fileMembers? fs file)
  let tree ← orFail .aborted (treeOf? members (ofVariables vars))
  orFail .unreadable (ofTree? tree)

end Settings

end DocIndex
