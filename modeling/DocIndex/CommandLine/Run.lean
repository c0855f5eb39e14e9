import DocIndex.CommandLine.Arguments
import DocIndex.CommandLine.Error
import DocIndex.Settings.Load
import DocIndex.Store.FileStore

/-!
# Runs

What a run prints and what it leaves in the files, as a function of its arguments, its environment,
its standard input and the files. The settings are loaded and checked before the command starts.
-/

namespace DocIndex.CommandLine

/-- What a run starts from. -/
structure Situation where
  /-- The arguments, without the program's name. -/
  arguments : List String
  /-- The variables of the environment. -/
  environment : Environment.Variables
  /-- The standard input. -/
  input : ByteArray
  /-- What the revision of a write ends in. -/
  suffix : String

/-- What a run ends with. -/
structure Outcome where
  /-- The exit code: 0 for success, 1 for a failure, 2 for arguments that ask for nothing, 101 for a
  run that ends at once. -/
  code : Nat
  /-- The standard output. -/
  output : String
  /-- The report of a failure. -/
  report : String
  deriving DecidableEq

/-- A successful run. -/
def Outcome.success (output : String) : Outcome := ⟨0, output, ""⟩

/-- A failed run. -/
def Outcome.failure (error : RunError) : Outcome := ⟨1, "", error.report⟩

/-- A run that ends before it does anything. -/
def Outcome.aborted : Outcome := ⟨101, "", ""⟩

/-- A text file's content. -/
def textOf (bytes : ByteArray) : Except FileError String :=
  match String.fromUTF8? bytes with
  | some text => .ok text
  | none => .error .notText

/-- The view in a file. -/
def readView (fs : FileSystem) (path : String) : Except RunError View :=
  match (fs.read path).bind textOf with
  | .error error => .error (.viewUnreadable path error)
  | .ok text =>
    match Json.parse? text with
    | none => .error (.viewNotJson path)
    | some json => (View.ofJson json).mapError (.viewInvalid path)

/-- The documents in a file or on standard input. -/
def readDocuments (fs : FileSystem) (path : Option String) (input : ByteArray) :
    Except RunError (List Json) :=
  let bytes : Except FileError ByteArray :=
    match path with
    | some path => fs.read path
    | none => .ok input
  match bytes.bind textOf with
  | .error error => .error (.documentsUnreadable path error)
  | .ok text => (DocumentText.read text.toList).mapError .documentsInvalid

/-- A text and a line feed. -/
def line (text : String) : String := text ++ "\n"

/-- What a read-only command prints. -/
def printed (result : Except RunError String) : Outcome :=
  match result with
  | .ok output => .success output
  | .error error => .failure error

/-- What an operation on the store prints, and the files after it. -/
def managed {α : Type} (lineOf : α → String) (result : Except ManagerError α × FileSystem) :
    Outcome × FileSystem :=
  match result with
  | (.ok answer, fs) => (.success (lineOf answer), fs)
  | (.error error, fs) => (.failure (.manager error), fs)

/-- What a replacement prints. -/
def putLine : PutOutcome → String
  | .written rev => line rev
  | .unchanged => line "unchanged"

/-- Runs a command under loaded settings. -/
def runCommand (settings : Settings) (situation : Situation) (command : Command)
    (fs : FileSystem) : Outcome × FileSystem :=
  let options : Options := ⟨settings.legacyMinute⟩
  let store (path : Option String) := Backend.file (path.getD settings.storePath) .none
  match command with
  | .check view => (printed ((readView fs view).map fun view => line view.toJson.pretty), fs)
  | .rows view documents =>
    (printed do
      let view ← readView fs view
      let documents ← readDocuments fs documents situation.input
      return DocumentText.writeRows (view.compile options) documents, fs)
  | .add group name view path =>
    match readView fs view with
    | .error error => (.failure error, fs)
    | .ok view => managed line (Manager.add (store path) situation.suffix group name view fs)
  | .put group name view path =>
    match readView fs view with
    | .error error => (.failure error, fs)
    | .ok view => managed putLine (Manager.put (store path) situation.suffix group name view fs)
  | .remove group name path =>
    managed line (Manager.remove (store path) situation.suffix group name fs)
  | .list group path =>
    managed (fun names => String.join (names.map line)) (Manager.list (store path) group fs, fs)

/-- Loads and checks the settings, then runs the command. -/
def runInvocation (situation : Situation) (invocation : Invocation) (fs : FileSystem) :
    Outcome × FileSystem :=
  match Settings.load fs situation.environment invocation.settingsFile with
  | .error .aborted => (.aborted, fs)
  | .error .unreadable => (.failure .settingsUnreadable, fs)
  | .ok settings =>
    match settings.fault? with
    | some error => (.failure (.settingsInvalid error), fs)
    | none =>
      let legacyMinute := settings.legacyMinute || invocation.legacyMinute
      runCommand { settings with legacyMinute := legacyMinute } situation invocation.command fs

/-- The name and version. -/
def versionText : String := "jsonviews 0.1.0"

/-- The help text. -/
def helpText : String :=
  "Compile JSON view patterns into index rows\n\n" ++
  "Usage: jsonviews [--config FILE] [--legacy-minute] COMMAND\n\n" ++
  "Commands:\n" ++
  "  check   --view FILE\n" ++
  "  rows    --view FILE [--docs FILE]\n" ++
  "  add     --group GROUP --name NAME --view FILE [--store FILE]\n" ++
  "  put     --group GROUP --name NAME --view FILE [--store FILE]\n" ++
  "  remove  --group GROUP --name NAME [--store FILE]\n" ++
  "  list    --group GROUP [--store FILE]\n"

/-- Runs the program. -/
def run (situation : Situation) (fs : FileSystem) : Outcome × FileSystem :=
  match Request.ofArguments situation.arguments with
  | .run invocation => runInvocation situation invocation fs
  | .version => (.success (line versionText), fs)
  | .help => (.success helpText, fs)
  | .invalid => (⟨2, "", helpText⟩, fs)

end DocIndex.CommandLine
