import DocIndex.Text.Word

/-!
# Settings

What a run of the command line is set up with, and which settings are valid.
-/

namespace DocIndex

/-- The settings of a run. -/
structure Settings where
  /-- The level of the log. -/
  level : String
  /-- Whether the log is written as JSON. -/
  json : Bool
  /-- The store file. -/
  storePath : String
  /-- Whether the transform `minute` gives the hour. -/
  legacyMinute : Bool
  deriving DecidableEq

/-- Why settings are not valid. -/
inductive SettingsError where
  /-- There is no such level. -/
  | unknownLevel (level : String)
  /-- The path of the store file is empty. -/
  | emptyStorePath
  deriving DecidableEq

namespace Settings

/-- The settings that hold unless others are given. -/
def default : Settings := ⟨"info", false, "jsonviews-store.json", false⟩

/-- The levels of the log, in lower case. -/
def levels : List String := ["trace", "debug", "info", "warn", "error"]

/-- What is wrong with settings, if anything; the level is looked at first and in any case. -/
def fault? (settings : Settings) : Option SettingsError :=
  if !levels.contains (Text.lowercase settings.level) then
    some (.unknownLevel settings.level)
  else if settings.storePath.isEmpty then some .emptyStorePath
  else none

end Settings

/-- The message of a fault in settings. -/
def SettingsError.message : SettingsError → String
  | unknownLevel level =>
    "logging.level must be one of " ++ String.intercalate ", " Settings.levels ++ ", got '" ++
      level ++ "'"
  | emptyStorePath => "store.path must not be empty"

end DocIndex
