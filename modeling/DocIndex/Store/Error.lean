/-!
# Store failures

The failures of a document store and of the files under it, with their wording.
-/

namespace DocIndex

/-- Why a file operation fails. -/
inductive FileError where
  /-- There is nothing at the path, or no directory to put it in. -/
  | notFound
  /-- A directory stands where a file is asked for. -/
  | isDirectory
  /-- A file stands where a directory is asked for. -/
  | notDirectory
  /-- A name, or the path as a whole, is too long. -/
  | nameTooLong
  /-- The path contains a null character. -/
  | nullByte
  /-- The content is no UTF-8 text. -/
  | notText
  /-- Any other reason, in the words of the system. -/
  | other (text : String)
  deriving DecidableEq

/-- The system's message. -/
def FileError.message : FileError → String
  | notFound => "No such file or directory (os error 2)"
  | isDirectory => "Is a directory (os error 21)"
  | notDirectory => "Not a directory (os error 20)"
  | nameTooLong => "File name too long (os error 36)"
  | nullByte => "file name contained an unexpected NUL byte"
  | notText => "stream did not contain valid UTF-8"
  | other text => text

/-- Why a document cannot be stored at all. -/
inductive DocumentFault where
  /-- It has no id. -/
  | noId
  /-- It is not an object. -/
  | notObject (id : String)
  deriving DecidableEq

/-- The message of a document's fault. -/
def DocumentFault.message : DocumentFault → String
  | noId => "document has no string '_id'"
  | notObject id => "document '" ++ id ++ "' is not an object"

/-- Why the storage fails. -/
inductive StorageFault where
  /-- An operation on the file at a path failed. -/
  | file (path : String) (error : FileError)
  /-- The file at a path does not hold an object of documents. -/
  | notDocumentMap (path : String)
  /-- Any other reason. -/
  | other (text : String)
  deriving DecidableEq

/-- The message of a storage fault. -/
def StorageFault.message : StorageFault → String
  | file path error => path ++ ": " ++ error.message
  | notDocumentMap path => path ++ " is not a document map"
  | other text => text

/-- Why a store refuses to read or to write. -/
inductive StoreError where
  /-- There is no document with this id. -/
  | notFound (id : String)
  /-- The document does not carry the current revision. -/
  | conflict (id : String)
  /-- The document cannot be stored at all. -/
  | invalidDocument (fault : DocumentFault)
  /-- The storage fails. -/
  | storage (fault : StorageFault)
  deriving DecidableEq

/-- The message of a store failure. -/
def StoreError.message : StoreError → String
  | notFound id => "Document not found: " ++ id
  | conflict id => "Document update conflict: " ++ id
  | invalidDocument fault => "Invalid document: " ++ fault.message
  | storage fault => "Storage error: " ++ fault.message

end DocIndex
