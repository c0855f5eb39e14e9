import DocIndex.Documents
import DocIndex.Settings.Basic
import DocIndex.Store.Manager

/-!
# Failures of a run

Why a run fails, as a chain from the outermost description to the innermost cause, and the report
that shows the chain.
-/

namespace DocIndex.CommandLine

/-- Why a run fails. -/
inductive RunError where
  /-- The settings cannot be loaded. -/
  | settingsUnreadable
  /-- The settings are not valid. -/
  | settingsInvalid (error : SettingsError)
  /-- The view file cannot be read. -/
  | viewUnreadable (path : String) (error : FileError)
  /-- The view file is not JSON. -/
  | viewNotJson (path : String)
  /-- The view file holds no view. -/
  | viewInvalid (path : String) (error : PatternError)
  /-- The documents cannot be read, from a file or from standard input. -/
  | documentsUnreadable (path : Option String) (error : FileError)
  /-- The text of the documents holds none. -/
  | documentsInvalid (error : DocumentsError)
  /-- A management operation fails. -/
  | manager (error : ManagerError)

/-- The cause of a failure to read a JSON text. -/
def notJson : String := "not a JSON text"

/-- The descriptions of a failure, outermost first. -/
def RunError.chain : RunError → List String
  | settingsUnreadable => ["Failed to load configuration"]
  | settingsInvalid error => ["Invalid configuration: " ++ error.message]
  | viewUnreadable path error => ["Failed to read view file " ++ path, error.message]
  | viewNotJson path => ["Invalid view in " ++ path, "View file is not valid JSON", notJson]
  | viewInvalid path error => ["Invalid view in " ++ path, error.message]
  | documentsUnreadable path error =>
    ["Failed to read documents from " ++ path.getD "stdin", error.message]
  | documentsInvalid error => [error.message, notJson]
  | manager error => [error.message]

/-- A text with an indent after each of its line feeds. -/
def indentLines (width : Nat) (text : String) : String :=
  String.ofList (text.toList.flatMap fun c =>
    if c = '\n' then '\n' :: List.replicate width ' ' else [c])

/-- The causes of a chain, each on a line with its number. -/
def numbered (number : Nat) : List String → String
  | [] => ""
  | cause :: causes =>
    "\n" ++ String.ofList (List.replicate (5 - (Text.ofNat number).length) ' ') ++
      String.ofList (Text.ofNat number) ++ ": " ++ indentLines 7 cause ++
      numbered (number + 1) causes

/-- The report of a chain; a single cause has no number. -/
def reportOf : List String → String
  | [] => ""
  | [outermost] => "Error: " ++ outermost ++ "\n"
  | [outermost, cause] =>
    "Error: " ++ outermost ++ "\n\nCaused by:\n    " ++ indentLines 4 cause ++ "\n"
  | outermost :: causes => "Error: " ++ outermost ++ "\n\nCaused by:" ++ numbered 0 causes ++ "\n"

/-- The report of a failure. -/
def RunError.report (error : RunError) : String := reportOf error.chain

end DocIndex.CommandLine
