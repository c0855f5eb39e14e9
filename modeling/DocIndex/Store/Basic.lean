import DocIndex.Json.Basic
import DocIndex.Store.Error
import DocIndex.Store.Revision

/-!
# Document stores

Documents by their ids. A write names the revision that it was made from, and is refused unless
that is the stored document's revision; it then gets the next one. `Backend` is what a view manager
needs of a store: a read and a write on some state.
-/

namespace DocIndex

/-- The documents of a store by their ids. -/
abbrev Documents := List (String × Json)

namespace Documents

/-- A document's string `_id`. -/
def idOf (document : Json) : Except StoreError String :=
  match document.member? "_id" with
  | some (.str id) => .ok id
  | _ => .error (.invalidDocument .noId)

/-- A document's string `_rev`. -/
def revOf (document : Json) : Option String :=
  match document.member? "_rev" with
  | some (.str rev) => some rev
  | _ => none

/-- The revision of the document stored under an id. -/
def currentRev (id : String) (documents : Documents) : Option String :=
  (Dict.find? id documents).bind revOf

/-- The document stored under an id. -/
def read (id : String) (documents : Documents) : Except StoreError Json :=
  match Dict.find? id documents with
  | some document => .ok document
  | none => .error (.notFound id)

/-- Stores a document under its id if it carries the current revision. The answer is the revision
that it gets, which ends in the given suffix. -/
def write (suffix : String) (document : Json) (documents : Documents) :
    Except StoreError (String × Documents) := do
  let id ← idOf document
  let current := currentRev id documents
  if current = revOf document then
    let rev := Revision.next current suffix
    match document with
    | .obj members =>
      let stored := Json.obj (Dict.insert "_rev" (.str rev) members)
      return (rev, Dict.insert id stored documents)
    | _ => .error (.invalidDocument (.notObject id))
  else .error (.conflict id)

end Documents

/-- A document store on states of a type. -/
structure Backend (σ : Type) where
  /-- Reads the document with an id. -/
  get : String → σ → Except StoreError Json
  /-- Stores a document; its revision ends in the suffix given first. -/
  put : String → Json → σ → Except StoreError String × σ

/-- The store that holds its documents in memory. -/
def Backend.memory : Backend Documents where
  get := Documents.read
  put suffix document documents :=
    match documents.write suffix document with
    | .ok (rev, written) => (.ok rev, written)
    | .error error => (.error error, documents)

end DocIndex
