import DocIndex.Json.Basic

/-!
# Interpreted values

What a pattern gives on a document: a plain value, no value, or a value that shapes the rows. A
missing value and a failed transform both stand for `null` in a row.
-/

namespace DocIndex

/-- The outcome of a pattern on a document. -/
inductive Interpreted where
  /-- A value. -/
  | plain (value : Json)
  /-- The path leads nowhere. -/
  | missing
  /-- A transform could not read its value. -/
  | failed
  /-- One row for each item. -/
  | fanout (items : List Json)
  /-- A row filter, with the value that it tested. -/
  | guard (value : Json) (passes : Bool)
  /-- Several key components. -/
  | flattenable (items : List Json)

namespace Interpreted

/-- The outcome of a path. -/
def ofResolved : Option Json → Interpreted
  | some value => plain value
  | none => missing

/-- Whether there is no value. -/
def isAbsent : Interpreted → Bool
  | missing | failed => true
  | _ => false

/-- The value without its annotation, `null` if there is none. -/
def payload : Interpreted → Json
  | plain value => value
  | missing | failed => .null
  | fanout items | flattenable items => .arr items
  | guard value _ => value

/-- The outcome without its annotation, in which an absent value stays absent. -/
def strip : Interpreted → Interpreted
  | plain value => plain value
  | missing => missing
  | failed => failed
  | fanout items => plain (.arr items)
  | flattenable items => plain (.arr items)
  | guard value _ => plain value

end Interpreted

/-- Whether a value counts as true: `null`, `false`, zero and the empty string do not. -/
def Json.isTruthy : Json → Bool
  | .null => false
  | .bool value => value
  | .num value => !value.isZero
  | .str text => !text.isEmpty
  | .arr _ | .obj _ => true

/-- Whether an outcome counts as true: an absent value does not, a list does. -/
def Interpreted.isTruthy : Interpreted → Bool
  | missing | failed => false
  | plain value | guard value _ => value.isTruthy
  | fanout _ | flattenable _ => true

end DocIndex
