import DocIndex.Json.Parser
import DocIndex.Json.Printer
import DocIndex.Store.Basic
import DocIndex.Store.FileSystem

/-!
# A store in a file

All documents in one JSON object, written in pretty form. A missing file and a file of white space
hold no documents. A write goes to the file's name with `.tmp` behind it, which is then renamed, so
the store file changes as a whole or not at all. The three file operations of a call may each be
made to fail.
-/

namespace DocIndex

/-- The file operations that are to fail, with the reason. -/
structure FileFaults where
  /-- Reading the store file. -/
  read : Option FileError
  /-- Writing the temporary file, of which so many bytes are there afterwards. -/
  write : Option (FileError × Nat)
  /-- Renaming the temporary file. -/
  rename : Option FileError

/-- Nothing is made to fail. -/
def FileFaults.none : FileFaults := ⟨.none, .none, .none⟩

namespace FileStore

/-- Whether a byte is a space, tab, line feed, form feed or carriage return. -/
def isBlankByte (byte : UInt8) : Bool :=
  byte == 0x20 || byte == 0x9 || byte == 0xA || byte == 0xC || byte == 0xD

/-- The documents that the bytes of a store file hold. -/
def decode? (bytes : ByteArray) : Option Documents :=
  if bytes.data.all isBlankByte then some []
  else
    match String.fromUTF8? bytes with
    | none => none
    | some text =>
      match Json.parse? text with
      | some (.obj documents) => some documents
      | _ => none

/-- The bytes of a store file. -/
def encode (documents : Documents) : ByteArray := (Json.pretty (.obj documents)).toUTF8

/-- The name of the temporary file. -/
def temporary (path : String) : String := path ++ ".tmp"

/-- A failed operation on a file. -/
def fileError (path : String) (error : FileError) : StoreError := .storage (.file path error)

/-- The documents of the store file. -/
def load (path : String) (faults : FileFaults) (fs : FileSystem) : Except StoreError Documents :=
  let read : Except FileError ByteArray :=
    match faults.read with
    | some error => .error error
    | none => fs.read path
  match read with
  | .error .notFound => .ok []
  | .error error => .error (fileError path error)
  | .ok bytes =>
    match decode? bytes with
    | some documents => .ok documents
    | none => .error (.storage (.notDocumentMap path))

/-- The bytes that a failing write leaves in the temporary file. -/
def writePartly (path : String) (bytes : ByteArray) (count : Nat) (fs : FileSystem) : FileSystem :=
  match fs.write path (bytes.extract 0 count) with
  | .ok written => written
  | .error _ => fs

/-- Replaces the content of the store file. -/
def save (path : String) (faults : FileFaults) (documents : Documents) (fs : FileSystem) :
    Except StoreError Unit × FileSystem :=
  let bytes := encode documents
  match faults.write with
  | some (error, count) =>
    (.error (fileError (temporary path) error), writePartly (temporary path) bytes count fs)
  | none =>
    match fs.write (temporary path) bytes with
    | .error error => (.error (fileError (temporary path) error), fs)
    | .ok written =>
      match faults.rename with
      | some error => (.error (fileError path error), written)
      | none =>
        match written.rename (temporary path) path with
        | .error error => (.error (fileError path error), written)
        | .ok renamed => (.ok (), renamed)

/-- The document with an id. -/
def get (path : String) (faults : FileFaults) (id : String) (fs : FileSystem) :
    Except StoreError Json :=
  (load path faults fs).bind (Documents.read id)

/-- Stores a document and answers its revision. -/
def put (path : String) (faults : FileFaults) (suffix : String) (document : Json)
    (fs : FileSystem) : Except StoreError String × FileSystem :=
  match load path faults fs with
  | .error error => (.error error, fs)
  | .ok documents =>
    match documents.write suffix document with
    | .error error => (.error error, fs)
    | .ok (rev, written) =>
      match save path faults written fs with
      | (.ok (), fs) => (.ok rev, fs)
      | (.error error, fs) => (.error error, fs)

end FileStore

/-- The store in the file at a path. -/
def Backend.file (path : String) (faults : FileFaults) : Backend FileSystem where
  get := FileStore.get path faults
  put := FileStore.put path faults

end DocIndex
