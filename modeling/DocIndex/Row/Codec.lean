import DocIndex.Row
import DocIndex.Shape

/-!
# Rows and options in JSON

A row is an object with the members `key` and `value`; it may also be read from an array of the
two. Options are an object with the optional member `legacy_minute`, or an array of it.
-/

namespace DocIndex

/-- The JSON form of a row. -/
def Row.toJson (row : Row) : Json := .obj [("key", row.key), ("value", row.value)]

/-- The row that a value describes. -/
def Row.ofJson : Json → Except ShapeError Row
  | .obj members =>
    match Dict.find? "key" members, Dict.find? "value" members with
    | none, _ => .error (.missingField "key")
    | some _, none => .error (.missingField "value")
    | some key, some value => .ok ⟨key, value⟩
  | .arr items =>
    match items with
    | [key, value] => .ok ⟨key, value⟩
    | [] | [_] => .error (.tooShort items.length .row)
    | _ => .error (.tooLong items.length)
  | other => .error (.invalidType other .row)

/-- The JSON form of options. -/
def Options.toJson (options : Options) : Json :=
  .obj [("legacy_minute", .bool options.legacyMinute)]

/-- The options that a value describes. -/
def Options.ofJson : Json → Except ShapeError Options
  | .obj members =>
    match Dict.find? "legacy_minute" members with
    | none => .ok .default
    | some value => value.asBool.map Options.mk
  | .arr items =>
    match items with
    | [] => .ok .default
    | [value] => value.asBool.map Options.mk
    | value :: _ => do
      let _ ← value.asBool
      .error (.tooLong items.length)
  | other => .error (.invalidType other .options)

end DocIndex
