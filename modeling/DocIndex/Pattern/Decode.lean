import DocIndex.Pattern.Basic
import DocIndex.Pattern.Error

/-!
# Reading views

The strict reading of patterns, keys and views from JSON. A pattern is a path string or an access
object; nothing but the known members may occur. Of several faults the first in a fixed order is
reported: an unknown member, then the inner pattern, the transform and the switches; in a view the
value before the key.
-/

namespace DocIndex

/-- The member names of an access object. -/
def Pattern.fields : List String :=
  ["access", "transform", "splay", "emit", "equals", "invert", "flatten"]

/-- The member names of a view. -/
def View.fields : List String := ["key", "value", "reduce"]

/-- The first key, in order, that is not among the known ones. -/
def firstUnknown (known : List String) (members : List (String × Json)) : Option String :=
  (Dict.keys members).find? fun key => !known.contains key

namespace Pattern

/-- The transform of an access object; `null` is none. -/
def decodeTransform (location : Location) : Option Json → Except PatternError (Option Transform)
  | none | some .null => .ok none
  | some (.str name) =>
    match Transform.ofName? name with
    | some transform => .ok (some transform)
    | none => .error (.unknownTransform (location.member .transform) name)
  | some other => .error (.transformNotString (location.member .transform) other.kind)

/-- A switch of an access object; `null` is off. -/
def decodeFlag (location : Location) (members : List (String × Json)) (flag : Flag) :
    Except PatternError Bool :=
  match Dict.find? flag.name members with
  | none | some .null => .ok false
  | some (.bool on) => .ok on
  | some other => .error (.flagNotBoolean (location.member (.flag flag)) other.kind)

/-- What an access object says beside its inner pattern. -/
def decodeDescriptor (location : Location) (members : List (String × Json)) :
    Except PatternError Descriptor := do
  let transform ← decodeTransform location (Dict.find? "transform" members)
  let splay ← decodeFlag location members .splay
  let emit ← decodeFlag location members .emit
  let invert ← decodeFlag location members .invert
  let flatten ← decodeFlag location members .flatten
  return ⟨transform, splay, emit, Dict.find? "equals" members, invert, flatten⟩

/-- An access object, given what its inner pattern reads as, if it has one. -/
def decodeAccess (location : Location) (members : List (String × Json))
    (inner : Option (Except PatternError Pattern)) : Except PatternError Pattern :=
  match firstUnknown fields members with
  | some name => .error (.unexpectedField location name)
  | none =>
    match inner with
    | none => .error (.missingAccess location)
    | some inner => do
      let inner ← inner
      let descriptor ← decodeDescriptor location members
      return .access inner descriptor

mutual

/-- The pattern that a value at a place describes. -/
def decodeAt (location : Location) : Json → Except PatternError Pattern
  | .str raw => .ok (.path ⟨raw⟩)
  | .obj members => decodeAccess location members (decodeInner location.access members)
  | .null => .error (.notPattern location .null)
  | .bool _ => .error (.notPattern location .bool)
  | .num _ => .error (.notPattern location .num)
  | .arr _ => .error (.notPattern location .arr)
termination_by structural value => value

/-- The pattern that the member `access` describes, if there is one. -/
def decodeInner (location : Location) :
    List (String × Json) → Option (Except PatternError Pattern)
  | [] => none
  | (key, value) :: members =>
    if key = "access" then some (decodeAt location value) else decodeInner location members
termination_by structural members => members

end

/-- The pattern that a value describes. -/
def ofJson (value : Json) : Except PatternError Pattern := decodeAt (.ofRoot .pattern) value

theorem decodeInner_eq (location : Location) (members : List (String × Json)) :
    decodeInner location members = (Dict.find? "access" members).map (decodeAt location) := by
  induction members with
  | nil => rfl
  | cons binding members ih =>
    obtain ⟨key, value⟩ := binding
    by_cases h : key = "access" <;> simp [decodeInner, Dict.find?, h, ih]

end Pattern

namespace KeyPattern

/-- The parts of a composite key, numbered from `index`. -/
def decodeParts (index : Nat) : List Json → Except PatternError (List Pattern)
  | [] => .ok []
  | value :: values => do
    let part ← Pattern.decodeAt (.ofRoot (.keyPart index)) value
    let parts ← decodeParts (index + 1) values
    return part :: parts

/-- The key that a value describes. -/
def ofJson : Json → Except PatternError KeyPattern
  | .arr items => (decodeParts 0 items).map composite
  | value => (Pattern.decodeAt (.ofRoot .key) value).map single

end KeyPattern

namespace View

/-- The value pattern of a view; `null` is none. -/
def decodeValue : Option Json → Except PatternError (Option Pattern)
  | none | some .null => .ok none
  | some value => (Pattern.decodeAt (.ofRoot .value) value).map some

/-- A reduce, in which `null` is none. -/
def decodeReduce (reduce : Option Json) : Option Json :=
  reduce.filter fun value => !value.isNull

/-- The view that a value describes. -/
def ofJson : Json → Except PatternError View
  | .obj members =>
    match firstUnknown fields members with
    | some name => .error (.unexpectedViewField name)
    | none =>
      match Dict.find? "key" members with
      | none => .error .missingKey
      | some key => do
        let value ← decodeValue (Dict.find? "value" members)
        let key ← KeyPattern.ofJson key
        return ⟨key, value, decodeReduce (Dict.find? "reduce" members)⟩
  | _ => .error .viewNotObject

end View

end DocIndex
