import DocIndex.Json.Basic
import DocIndex.Text.Digit

/-!
# Places in a view

Where in the JSON text of a view something is wrong: a starting point, a number of `access`
members to descend through, and perhaps one more member of the last access object.
-/

namespace DocIndex

/-- Where a descent into a view starts. -/
inductive Location.Root where
  /-- The view as a whole. -/
  | view
  /-- A pattern that stands alone. -/
  | pattern
  /-- The key. -/
  | key
  /-- A part of a composite key. -/
  | keyPart (index : Nat)
  /-- The value. -/
  | value
  deriving DecidableEq

/-- The switches of an access object. -/
inductive Flag where
  /-- One row per item. -/
  | splay
  /-- Filter rows. -/
  | emit
  /-- Turn the filter around. -/
  | invert
  /-- Widen the key. -/
  | flatten
  deriving DecidableEq

/-- The member name of a switch. -/
def Flag.name : Flag → String
  | splay => "splay"
  | emit => "emit"
  | invert => "invert"
  | flatten => "flatten"

/-- The last member of a descent. -/
inductive Location.Field where
  /-- The transform. -/
  | transform
  /-- A switch. -/
  | flag (switch : Flag)
  deriving DecidableEq

/-- The member name of a field. -/
def Location.Field.name : Location.Field → String
  | transform => "transform"
  | flag switch => switch.name

/-- A place in a view. -/
structure Location where
  /-- The starting point. -/
  root : Location.Root
  /-- How many `access` members lie between the starting point and the object in question. -/
  depth : Nat
  /-- The member of that object, if it is not the object itself. -/
  field : Option Location.Field
  deriving DecidableEq

namespace Location

/-- A starting point by itself. -/
def ofRoot (root : Root) : Location := ⟨root, 0, none⟩

/-- The place one `access` member further inside. -/
def access (location : Location) : Location := { location with depth := location.depth + 1 }

/-- A member of the object at a place. -/
def member (location : Location) (field : Field) : Location := { location with field := some field }

/-- A starting point's text. -/
def Root.text : Root → String
  | view => "view"
  | pattern => "pattern"
  | key => "key"
  | keyPart index => "key[" ++ String.ofList (Text.ofNat index) ++ "]"
  | value => "value"

/-- The text of a number of `access` members. -/
def accessText : Nat → String
  | 0 => ""
  | depth + 1 => accessText depth ++ ".access"

/-- A place's text. -/
def text (location : Location) : String :=
  location.root.text ++ accessText location.depth ++
    (match location.field with
      | some field => "." ++ field.name
      | none => "")

/-! ### Following a place -/

/-- The value a number of `access` members inside another. -/
def descend : Nat → Json → Option Json
  | 0, value => some value
  | depth + 1, value => (value.member? "access").bind (descend depth)

/-- The value at a place in the JSON text of a view, or of a pattern if it starts there. -/
def follow (location : Location) (value : Json) : Option Json :=
  let root :=
    match location.root with
    | .view | .pattern => some value
    | .key => value.member? "key"
    | .keyPart index =>
      match value.member? "key" with
      | some (.arr items) => items[index]?
      | _ => none
    | .value => value.member? "value"
  match location.field with
  | some field => (root.bind (descend location.depth)).bind (Json.member? field.name)
  | none => root.bind (descend location.depth)

end Location

end DocIndex
