import DocIndex.CommandLine.Run

/-!
# The program

The outer layer of the command line. It looks up the variables and the files that a run may ask
for, lets `CommandLine.run` decide everything, then writes the store file and the two outputs.
-/

namespace DocIndex.Program

open CommandLine

/-- The paths that lead to a path, outermost first, and the path itself. -/
def waysTo (path : String) : List String :=
  let root := if path.startsWith "/" then "/" else ""
  let names := FileSystem.namesOf path
  (List.range names.length).map fun count =>
    root ++ String.intercalate "/" (names.take (count + 1))

/-- Looks up what stands at a path. -/
def addEntry (fs : FileSystem) (path : String) : IO FileSystem := do
  let place := FileSystem.placeOf path
  try
    return fs.insert place (.file (← IO.FS.readBinFile path))
  catch error =>
    match error with
    | .inappropriateType _ 21 _ => return fs.insert place .directory
    | _ => return fs

/-- Looks up what stands at a path and on the way to it. -/
def addPath (fs : FileSystem) (path : String) : IO FileSystem :=
  (waysTo path).foldlM addEntry fs

/-- The store file of a command. -/
def storeOf? (settings : Settings) : Command → Option String
  | .check _ | .rows _ _ => none
  | .add _ _ _ store | .put _ _ _ store | .remove _ _ store | .list _ store =>
    some (store.getD settings.storePath)

/-- The files that a command reads beside its store file. -/
def inputsOf : Command → List String
  | .check view => [view]
  | .rows view documents => view :: documents.toList
  | .add _ _ view _ | .put _ _ view _ => [view]
  | .remove _ _ _ | .list _ _ => []

/-- The paths of the environment files that a run may have. -/
def environmentFiles : IO (List String) := do
  let steps := (← IO.currentDir).components.length
  return (List.range steps).map fun steps => FileSystem.above steps ++ ".env"

/-- Looks up the files that settings are loaded from. -/
def lookUpSettings (invocation : Invocation) : IO FileSystem := do
  let named := invocation.settingsFile.toList
  let files := "jsonviews" :: "jsonviews.toml" :: named ++ named.filterMap Settings.withToml?
  ((← environmentFiles) ++ files).foldlM addPath .empty

/-- A variable from its name, an equals sign and its value. -/
def variableOf? (bytes : List UInt8) : Option (String × String) := do
  let text ← String.fromUTF8? ⟨bytes.toArray⟩
  let name := text.toList.takeWhile (· != '=')
  return (String.ofList name, String.ofList (text.toList.drop (name.length + 1)))

/-- The variables that the program is started with. -/
def lookUpVariables : IO Environment.Variables := do
  try
    let bytes ← IO.FS.readBinFile "/proc/self/environ"
    return (bytes.toList.splitOn 0).filterMap variableOf?
  catch _ => return []

/-- The bytes of the file at a path, if there is one. -/
def contentOf? (fs : FileSystem) (path : String) : Option (List UInt8) :=
  match fs.read path with
  | .ok bytes => some bytes.toList
  | .error _ => none

/-- Writes the store file of a run that changed it, as a whole. -/
def saveStore (path : String) (before after : FileSystem) : IO Unit := do
  match contentOf? after path with
  | some bytes =>
    if contentOf? before path != some bytes then
      IO.FS.writeBinFile (FileStore.temporary path) ⟨bytes.toArray⟩
      IO.FS.rename (FileStore.temporary path) path
  | none => pure ()

/-- Runs a command on the files that are there. -/
def execute (situation : Situation) (invocation : Invocation) : IO Outcome := do
  let files ← lookUpSettings invocation
  match Settings.load files situation.environment invocation.settingsFile with
  | .error _ => return (run situation files).1
  | .ok settings =>
    let store := storeOf? settings invocation.command
    let before ← (inputsOf invocation.command ++ store.toList).foldlM addPath files
    let (outcome, after) := run situation before
    try
      store.forM fun path => saveStore path before after
      return outcome
    catch error =>
      return .failure (.manager (.store (.storage (.other (toString error)))))

end DocIndex.Program

open DocIndex DocIndex.CommandLine DocIndex.Program in
/-- Runs the command line. -/
def main (arguments : List String) : IO UInt32 := do
  let suffix := Revision.randomSuffix ((← IO.getRandomBytes 16).toList.map UInt8.toNat)
  let environment ← lookUpVariables
  let outcome ←
    match Request.ofArguments arguments with
    | .run invocation => do
      let input ←
        match invocation.command with
        | .rows _ none => (← IO.getStdin).readBinToEnd
        | _ => pure ByteArray.empty
      execute ⟨arguments, environment, input, suffix⟩ invocation
    | _ => pure (run ⟨arguments, environment, ByteArray.empty, suffix⟩ .empty).1
  IO.print outcome.output
  IO.eprint outcome.report
  return UInt32.ofNat outcome.code
