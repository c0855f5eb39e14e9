import DocIndex.Pattern.Decode
import DocIndex.Pattern.Encode
import DocIndex.Shape

/-!
# Stored views

The form in which a design document keeps a view: the patterns under `map`, the reduce beside
them. Reading takes the reduce from there alone and treats `null` as none.
-/

namespace DocIndex.View

/-- The stored form of a view. -/
def toDefinition (view : View) : Json :=
  .obj (("map", view.patternsToJson) :: optionalMember "reduce" view.reduce)

/-- The view of a `map` and of the reduce beside it. -/
def ofMap (map : Json) (reduce : Option Json) : Except ShapeError View :=
  match View.ofJson map with
  | .ok view => .ok { view with reduce := decodeReduce reduce }
  | .error error => .error (.pattern error)

/-- The view that a stored form describes; an array of its fields in order counts as well. -/
def ofDefinition : Json → Except ShapeError View
  | .obj members =>
    match Dict.find? "map" members with
    | some map => ofMap map (Dict.find? "reduce" members)
    | none => .error (.missingField "map")
  | .arr items =>
    match items with
    | [] => .error (.tooShort 0 .definition)
    | [map] => ofMap map none
    | [map, reduce] => ofMap map (some reduce)
    | _ => .error (.tooLong items.length)
  | other => .error (.invalidType other .definition)

end DocIndex.View
