import DocIndex.Store.Error

/-!
# Files

The files and directories that paths lead to from a working directory. A path is followed name by
name: one point stays, two points go up, and any other name goes down. Every step but the last has
to arrive at a directory, and a path that ends in a slash asks for one. Reading, writing and
renaming fail as the system does when a path leads nowhere, through a file, or to a directory.
-/

namespace DocIndex

/-- What stands at a place. -/
inductive FileEntry where
  /-- A file and its bytes. -/
  | file (bytes : ByteArray)
  /-- A directory. -/
  | directory

/-- A place, by the names that lead there from the working directory, each of two points going up,
and these before all others. A place whose first name is a slash is counted from the root. -/
abbrev Place := List String

/-- Everything that there is. -/
structure FileSystem where
  /-- The entries by their places; of two entries at one place the first counts. -/
  entries : List (Place × FileEntry)

namespace FileSystem

/-- Nothing but the working directory. -/
def empty : FileSystem := ⟨[]⟩

/-! ### Paths -/

/-- The texts between the slashes of a path. -/
def splitNames : List Char → List (List Char)
  | [] => [[]]
  | c :: rest =>
    if c = '/' then [] :: splitNames rest
    else
      match splitNames rest with
      | [] => [[c]]
      | name :: names => (c :: name) :: names

/-- Whether a path asks for a directory by its end. -/
def endsInSlash (path : String) : Bool := path.toList.getLast? == some '/'

/-- The names of a path, without the empty ones. -/
def namesOf (path : String) : List String :=
  ((splitNames path.toList).filter fun name => name != []).map String.ofList

/-- The steps of a path; a slash at its end is a step that stays. -/
def stepsOf (path : String) : List String :=
  namesOf path ++ if endsInSlash path then ["."] else []

/-- The place that a path starts from. -/
def startOf (path : String) : Place := if path.startsWith "/" then ["/"] else []

/-- The place one step up. -/
def parent (place : Place) : Place :=
  match place.getLast? with
  | none | some ".." => place ++ [".."]
  | some "/" => place
  | some _ => place.dropLast

/-- The greatest length of a name in bytes. -/
def nameLimit : Nat := 255

/-- The length that a path in bytes has to stay below. -/
def pathLimit : Nat := 4096

/-- The path of the directory so many steps above the working directory. -/
def above (steps : Nat) : String := String.join (List.replicate steps "../")

/-! ### Looking up -/

/-- How many steps above the working directory there are entries. -/
def height (fs : FileSystem) : Nat :=
  fs.entries.foldl (fun height entry => max height (entry.1.count "..")) 0

/-- Whether a place is a directory that is always there: the root, the working directory or one
above it. -/
def isAbove (place : Place) : Bool := place == ["/"] || place.all (· == "..")

/-- What stands at a place. -/
def entry? (fs : FileSystem) (place : Place) : Option FileEntry :=
  if isAbove place then some .directory else fs.entries.lookup place

/-- The place that steps lead to from a directory. -/
def follow (fs : FileSystem) (place : Place) : List String → Except FileError Place
  | [] => .ok place
  | name :: names =>
    if name = "." then fs.follow place names
    else if name = ".." then fs.follow (parent place) names
    else if nameLimit < name.utf8ByteSize then .error .nameTooLong
    else if names.isEmpty then .ok (place ++ [name])
    else
      match fs.entry? (place ++ [name]) with
      | none => .error .notFound
      | some (.file _) => .error .notDirectory
      | some .directory => fs.follow (place ++ [name]) names

/-- The place that a path leads to; the empty path leads nowhere else than to the working
directory. -/
def resolve (fs : FileSystem) (path : String) : Except FileError Place :=
  if path.toList.contains '\x00' then .error .nullByte
  else if pathLimit ≤ path.utf8ByteSize then .error .nameTooLong
  else fs.follow (startOf path) (stepsOf path)

/-- The bytes of the file at a path. -/
def read (fs : FileSystem) (path : String) : Except FileError ByteArray := do
  match fs.entry? (← fs.resolve path) with
  | none => .error .notFound
  | some .directory => .error .isDirectory
  | some (.file bytes) => .ok bytes

/-- Whether there is a file at a path. -/
def isFile (fs : FileSystem) (path : String) : Bool :=
  match fs.read path with
  | .ok _ => true
  | .error _ => false

/-! ### Changes -/

/-- Takes the entry at a place away. -/
def erase (fs : FileSystem) (place : Place) : FileSystem :=
  ⟨fs.entries.filter fun entry => entry.1 != place⟩

/-- Puts an entry at a place, instead of any that was there. -/
def insert (fs : FileSystem) (place : Place) (entry : FileEntry) : FileSystem :=
  ⟨(place, entry) :: (fs.erase place).entries⟩

/-- Writes a file, instead of the one that was there. -/
def write (fs : FileSystem) (path : String) (bytes : ByteArray) : Except FileError FileSystem := do
  let place ← fs.resolve path
  match fs.entry? place with
  | some .directory => .error .isDirectory
  | _ => .ok (fs.insert place (.file bytes))

/-- Moves a file to another path, instead of the one that was there. -/
def rename (fs : FileSystem) (source target : String) : Except FileError FileSystem := do
  let bytes ← fs.read source
  let source ← fs.resolve source
  let target ← fs.resolve target
  match fs.entry? target with
  | some .directory => .error .isDirectory
  | _ => .ok ((fs.erase source).insert target (.file bytes))

/-! ### Setting up -/

/-- The place that a path leads to if every step arrives at a directory. -/
def placeOf (path : String) : Place :=
  (namesOf path).foldl (fun place name =>
    if name = "." then place else if name = ".." then parent place else place ++ [name])
    (startOf path)

/-- Puts directories along names, behind those already taken. -/
def insertWay (fs : FileSystem) (taken : Place) : List String → FileSystem
  | [] => fs
  | name :: names =>
    insertWay (fs.insert (taken ++ [name]) .directory) (taken ++ [name]) names

/-- Adds a directory and the directories around it. -/
def addDirectory (fs : FileSystem) (path : String) : FileSystem := fs.insertWay [] (placeOf path)

/-- Adds a file and the directories around it. -/
def addFile (fs : FileSystem) (path : String) (bytes : ByteArray) : FileSystem :=
  (fs.insertWay [] (placeOf path).dropLast).insert (placeOf path) (.file bytes)

end FileSystem

end DocIndex
