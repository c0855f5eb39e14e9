import DocIndex.Json.Numeral
import DocIndex.Pattern.Error
import DocIndex.Text.Quoted

/-!
# Shapes

The typed values that are read from JSON beside patterns, the reasons for which a JSON value does
not have the shape of one, and their wording.
-/

namespace DocIndex

/-- What a reader expected. -/
inductive Shape where
  /-- A string. -/
  | text
  /-- An object with any members. -/
  | map
  /-- A truth value. -/
  | boolean
  /-- A row. -/
  | row
  /-- The options of the compiler. -/
  | options
  /-- A stored view. -/
  | definition
  /-- A design document. -/
  | design
  deriving DecidableEq

/-- A shape's name in messages. -/
def Shape.name : Shape → String
  | text => "a string"
  | map => "a map"
  | boolean => "a boolean"
  | row => "struct Row"
  | options => "struct CompileOptions"
  | definition => "struct RawViewDefinition"
  | design => "struct DesignDocument"

/-- Why a JSON value does not have a shape. -/
inductive ShapeError where
  /-- A view or pattern is not well formed. -/
  | pattern (error : PatternError)
  /-- A member is missing. -/
  | missingField (name : String)
  /-- A value is of another kind. -/
  | invalidType (found : Json) (expected : Shape)
  /-- An array has too few items for its two fields. -/
  | tooShort (length : Nat) (expected : Shape)
  /-- An array has items left over. -/
  | tooLong (length : Nat)

/-- A value as messages show it. -/
def Json.described : Json → String
  | .null => "null"
  | .bool true => "boolean `true`"
  | .bool false => "boolean `false`"
  | .num (.int n) => "integer `" ++ String.ofList (Text.ofInt n) ++ "`"
  | .num (.double x) => "floating point `" ++ String.ofList (Number.doubleText x) ++ "`"
  | .str text => "string " ++ Text.quoted text
  | .arr _ => "sequence"
  | .obj _ => "map"

/-- The message of a reason. -/
def ShapeError.message : ShapeError → String
  | pattern error => error.message
  | missingField name => "missing field `" ++ name ++ "`"
  | invalidType found expected =>
    "invalid type: " ++ found.described ++ ", expected " ++ expected.name
  | tooShort length expected =>
    "invalid length " ++ String.ofList (Text.ofNat length) ++ ", expected " ++ expected.name ++
      " with 2 elements"
  | tooLong length =>
    "invalid length " ++ String.ofList (Text.ofNat length) ++ ", expected fewer elements in array"

/-- A string. -/
def Json.asText : Json → Except ShapeError String
  | .str text => .ok text
  | other => .error (.invalidType other .text)

/-- A truth value. -/
def Json.asBool : Json → Except ShapeError Bool
  | .bool value => .ok value
  | other => .error (.invalidType other .boolean)

/-- The members of an object. -/
def Json.asMap : Json → Except ShapeError (List (String × Json))
  | .obj members => .ok members
  | other => .error (.invalidType other .map)

end DocIndex
