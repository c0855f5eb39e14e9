import DocIndex.Design.Document
import DocIndex.Store.Basic
import DocIndex.View.Compiled

/-!
# Managing views

Adding, replacing, removing and loading the views of a group. Every operation is one read of the
group's design document and at most one write of the changed document; the functions from the
answer of the read to what is written are stated apart, so that other writers may come between.
-/

namespace DocIndex

/-- Why a design document cannot be used. -/
inductive DesignFault where
  /-- The document has not the shape of a design document. -/
  | document (error : ShapeError)
  /-- The view of a name has not the shape of a stored view. -/
  | view (name : String) (error : ShapeError)

/-- The message of a design document's fault. -/
def DesignFault.message : DesignFault → String
  | document error => error.message
  | view name error => "view '" ++ name ++ "': " ++ error.message

/-- Why a management operation fails. -/
inductive ManagerError where
  /-- The group has a view of that name already. -/
  | duplicateView (group view : String)
  /-- The group has no view of that name. -/
  | missingView (group view : String)
  /-- The view is not well formed. -/
  | invalidView (cause : PatternError)
  /-- A stored document or view is not well formed. -/
  | malformed (id : String) (fault : DesignFault)
  /-- The store failed. -/
  | store (error : StoreError)

namespace ManagerError

/-- The message of a failure. -/
def message : ManagerError → String
  | duplicateView group view =>
    "View '" ++ view ++ "' already exists on ddoc '_design/" ++ group ++ "'"
  | missingView group view =>
    "No view '" ++ view ++ "' to remove on ddoc '_design/" ++ group ++ "'"
  | invalidView cause => "Invalid view definition: " ++ cause.message
  | malformed id fault => "Malformed design document '" ++ id ++ "': " ++ fault.message
  | store error => error.message

/-- Whether another writer came first, so that the operation may succeed when it is repeated. -/
def isRetryable : ManagerError → Bool
  | store (.conflict _) => true
  | _ => false

end ManagerError

/-- The answer of a replacement. -/
inductive PutOutcome where
  /-- The design document was written and has this revision. -/
  | written (rev : String)
  /-- The same view was there already. -/
  | unchanged
  deriving DecidableEq

namespace Manager

/-! ### From a read to a write -/

/-- The design document of a group, given what reading it answered; one that is not there yet is a
new one. -/
def designOf (group : String) : Except StoreError Json → Except ManagerError DesignDocument
  | .ok document =>
    match DesignDocument.ofJson document with
    | .ok design => .ok design
    | .error error => .error (.malformed (DesignDocument.idOf group) (.document error))
  | .error (.notFound _) => .ok (.new group)
  | .error error => .error (.store error)

/-- The design document with a view bound. -/
def withView (design : DesignDocument) (name : String) (view : View) : DesignDocument :=
  { design with views := Dict.insert name view.toDefinition design.views }

/-- What is written to add a view that must not be there yet. -/
def planAdd (group name : String) (view : View) (read : Except StoreError Json) :
    Except ManagerError Json := do
  let design ← designOf group read
  if design.hasView name then .error (.duplicateView group name)
  else return (withView design name view).toJson

/-- What is written to add or replace a view, if that changes anything. -/
def planPut (group name : String) (view : View) (read : Except StoreError Json) :
    Except ManagerError (Option Json) := do
  let design ← designOf group read
  match Dict.find? name design.views with
  | some stored =>
    if stored == view.toDefinition then return none
    else return some (withView design name view).toJson
  | none => return some (withView design name view).toJson

/-- What is written to remove a view that must be there. -/
def planRemove (group name : String) (read : Except StoreError Json) :
    Except ManagerError Json := do
  let design ← designOf group read
  if design.hasView name then
    return { design with views := Dict.erase name design.views }.toJson
  else .error (.missingView group name)

/-! ### Operations on a store -/

variable {σ : Type}

/-- The design document of a group. -/
def design (store : Backend σ) (group : String) (state : σ) :
    Except ManagerError DesignDocument :=
  designOf group (store.get (DesignDocument.idOf group) state)

/-- Stores a planned document. -/
def save (store : Backend σ) (suffix : String) (document : Json) (state : σ) :
    Except ManagerError String × σ :=
  match store.put suffix document state with
  | (.ok rev, state) => (.ok rev, state)
  | (.error error, state) => (.error (.store error), state)

/-- Adds a view that must not be there yet. -/
def add (store : Backend σ) (suffix group name : String) (view : View) (state : σ) :
    Except ManagerError String × σ :=
  match planAdd group name view (store.get (DesignDocument.idOf group) state) with
  | .error error => (.error error, state)
  | .ok document => save store suffix document state

/-- Adds or replaces a view. -/
def put (store : Backend σ) (suffix group name : String) (view : View) (state : σ) :
    Except ManagerError PutOutcome × σ :=
  match planPut group name view (store.get (DesignDocument.idOf group) state) with
  | .error error => (.error error, state)
  | .ok none => (.ok .unchanged, state)
  | .ok (some document) =>
    match save store suffix document state with
    | (.ok rev, state) => (.ok (.written rev), state)
    | (.error error, state) => (.error error, state)

/-- Removes a view that must be there. -/
def remove (store : Backend σ) (suffix group name : String) (state : σ) :
    Except ManagerError String × σ :=
  match planRemove group name (store.get (DesignDocument.idOf group) state) with
  | .error error => (.error error, state)
  | .ok document => save store suffix document state

/-- The compiled view of a name, if there is one. -/
def view (store : Backend σ) (options : Options) (group name : String) (state : σ) :
    Except ManagerError (Option CompiledView) := do
  let design ← design store group state
  match design.view? name with
  | none => return none
  | some (.ok view) => return some (view.compile options)
  | some (.error error) => .error (.malformed design.id (.view name error))

/-- The names of a group's views, in order. -/
def list (store : Backend σ) (group : String) (state : σ) : Except ManagerError (List String) :=
  (design store group state).map fun design => Dict.keys design.views

end Manager

end DocIndex
