import DocIndex.Environment.Basic
import DocIndex.Settings.Tree

/-!
# Settings in variables

A variable whose name starts with `JSONVIEWS__`, in any case, gives a setting. The rest of its name
is the path of the setting, with two underscores for each point.
-/

namespace DocIndex.Settings

/-- What the names of variables for settings start with, in small letters. -/
def variableMark : List Char := ['j', 's', 'o', 'n', 'v', 'i', 'e', 'w', 's', '_', '_']

/-- A text with a point for every two underscores, from its start on. -/
def pointed : List Char → List Char
  | '_' :: '_' :: rest => '.' :: pointed rest
  | c :: rest => c :: pointed rest
  | [] => []

/-- The path of the setting that a variable gives. -/
def pathOfVariable? (name : String) : Option String :=
  let name := (Text.lowercase name).toList
  if variableMark.isPrefixOf name then
    some (String.ofList (pointed (name.drop variableMark.length)))
  else none

/-- The settings that variables give, by their paths; of two of the same path the later counts. -/
def ofVariables (vars : Environment.Variables) : List (String × SettingTree) :=
  vars.foldl (fun members binding =>
    match pathOfVariable? binding.1 with
    | some path => Dict.insert path (.leaf (SettingValue.ofVariable binding.2)) members
    | none => members) []

end DocIndex.Settings
