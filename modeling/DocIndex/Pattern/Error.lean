import DocIndex.Pattern.Location

/-!
# What can be wrong with a view

The reasons for which a JSON value is no view, each with its place, and their wording.
-/

namespace DocIndex

/-- The kinds of JSON values. -/
inductive Json.Kind where
  /-- The value `null`. -/
  | null
  /-- A truth value. -/
  | bool
  /-- A number. -/
  | num
  /-- A string. -/
  | str
  /-- An array. -/
  | arr
  /-- An object. -/
  | obj
  deriving DecidableEq

/-- The kind of a value. -/
def Json.kind : Json → Json.Kind
  | .null => .null
  | .bool _ => .bool
  | .num _ => .num
  | .str _ => .str
  | .arr _ => .arr
  | .obj _ => .obj

/-- A kind's name in messages. -/
def Json.Kind.name : Json.Kind → String
  | null => "null"
  | bool => "a boolean"
  | num => "a number"
  | str => "a string"
  | arr => "an array"
  | obj => "an object"

/-- Why a JSON value is no view or no pattern. -/
inductive PatternError where
  /-- A view is not an object. -/
  | viewNotObject
  /-- A view has a member that views do not have. -/
  | unexpectedViewField (name : String)
  /-- A view has no key. -/
  | missingKey
  /-- A pattern is neither a string nor an object. -/
  | notPattern (location : Location) (found : Json.Kind)
  /-- An access object has a member that access objects do not have. -/
  | unexpectedField (location : Location) (name : String)
  /-- An access object has no inner pattern. -/
  | missingAccess (location : Location)
  /-- A transform is not a string. -/
  | transformNotString (location : Location) (found : Json.Kind)
  /-- There is no transform of that name. -/
  | unknownTransform (location : Location) (name : String)
  /-- A switch is not a truth value. -/
  | flagNotBoolean (location : Location) (found : Json.Kind)
  deriving DecidableEq

namespace PatternError

/-- Where the fault lies. -/
def location : PatternError → Location
  | viewNotObject | unexpectedViewField _ | missingKey => .ofRoot .view
  | notPattern location _ | unexpectedField location _ | missingAccess location
  | transformNotString location _ | unknownTransform location _ | flagNotBoolean location _ =>
    location

/-- What is wrong there. -/
def reason : PatternError → String
  | viewNotObject => "expected an object"
  | unexpectedViewField name =>
    "unexpected field '" ++ name ++ "' (expected key, value, reduce)"
  | missingKey => "missing required field 'key'"
  | notPattern _ found => "expected a path string or an access object, got " ++ found.name
  | unexpectedField _ name => "unexpected field '" ++ name ++ "' in access pattern"
  | missingAccess _ => "access pattern is missing 'access'"
  | transformNotString _ found => "expected a string, got " ++ found.name
  | unknownTransform _ name => "'" ++ name ++ "'"
  | flagNotBoolean _ found => "expected a boolean, got " ++ found.name

/-- The message of a fault. -/
def message (error : PatternError) : String :=
  match error with
  | unknownTransform location name =>
    "Unknown transform at " ++ location.text ++ ": '" ++ name ++ "'"
  | _ => "Invalid pattern at " ++ error.location.text ++ ": " ++ error.reason

end PatternError

end DocIndex
