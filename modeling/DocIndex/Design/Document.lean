import DocIndex.Design.Definition

/-!
# Design documents

The document `_design/<group>` that keeps the views of a group. Its views stay raw JSON until one
is asked for, and members other than `_id`, `_rev` and `views` are carried along unread.
-/

namespace DocIndex

/-- A design document. -/
structure DesignDocument where
  /-- The member `_id`. -/
  id : String
  /-- The member `_rev`, which a document has once it is stored. -/
  rev : Option String
  /-- The views by their names. -/
  views : List (String × Json)
  /-- All other members. -/
  other : List (String × Json)

namespace DesignDocument

/-- What the ids of design documents start with. -/
def idStart : String := "_design/"

/-- The id of a group's design document. -/
def idOf (group : String) : String := idStart ++ group

/-- A group's design document before it is first stored. -/
def new (group : String) : DesignDocument := ⟨idOf group, none, [], []⟩

/-- What is left of a text after a given start. -/
def dropStart? : List Char → List Char → Option (List Char)
  | [], text => some text
  | c :: start, d :: text => if c = d then dropStart? start text else none
  | _ :: _, [] => none

/-- The group of a design document; an id of another form is its own group. -/
def group (doc : DesignDocument) : String :=
  match dropStart? idStart.toList doc.id.toList with
  | some group => String.ofList group
  | none => doc.id

/-- Whether there is a view of that name. -/
def hasView (doc : DesignDocument) (name : String) : Bool := Dict.contains name doc.views

/-- The view of that name, if there is one. -/
def view? (doc : DesignDocument) (name : String) : Option (Except ShapeError View) :=
  (Dict.find? name doc.views).map View.ofDefinition

/-! ### JSON -/

/-- The member names that a design document gives a meaning. -/
def fields : List String := ["_id", "_rev", "views"]

/-- The id, if there is one. -/
def readId : Option Json → Except ShapeError (Option String)
  | none => .ok none
  | some value => value.asText.map some

/-- The revision; `null` is none. -/
def readRev : Option Json → Except ShapeError (Option String)
  | none | some .null => .ok none
  | some value => value.asText.map some

/-- The views; without any the dictionary is empty. -/
def readViews : Option Json → Except ShapeError (List (String × Json))
  | none => .ok []
  | some value => value.asMap

/-- The design document that a value describes. The kinds of its members are looked at before the
absence of an id. -/
def ofJson : Json → Except ShapeError DesignDocument
  | .obj members => do
    let id ← readId (Dict.find? "_id" members)
    let rev ← readRev (Dict.find? "_rev" members)
    let views ← readViews (Dict.find? "views" members)
    match id with
    | none => .error (.missingField "_id")
    | some id => .ok ⟨id, rev, views, members.filter fun member => !fields.contains member.1⟩
  | other => .error (.invalidType other .design)

/-- The dictionary with the revision bound, if there is one. -/
def insertRev (rev : Option String) (members : List (String × Json)) : List (String × Json) :=
  match rev with
  | some rev => Dict.insert "_rev" (.str rev) members
  | none => members

/-- The JSON form of a design document. -/
def toJson (doc : DesignDocument) : Json :=
  .obj (Dict.insert "_id" (.str doc.id)
    (insertRev doc.rev (Dict.insert "views" (.obj doc.views) doc.other)))

end DesignDocument

end DocIndex
