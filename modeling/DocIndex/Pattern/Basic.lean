import DocIndex.Path

/-!
# Patterns

What a view takes from a document. A pattern is a path with any number of descriptors around it,
innermost first; a descriptor transforms the value inside it, and may turn it into a row filter
(`emit`), one row per item (`splay`) or several key components (`flatten`). A view pairs a key, of
one part or of several, with a value and an opaque reduce.
-/

namespace DocIndex

/-- The named transforms. -/
inductive Transform where
  /-- Year, month and day. -/
  | date
  /-- The year. -/
  | year
  /-- The month. -/
  | month
  /-- Year and month. -/
  | yearMonth
  /-- The day. -/
  | day
  /-- Hour, minute, second and millisecond. -/
  | time
  /-- The hour. -/
  | hour
  /-- The minute. -/
  | minute
  /-- All seven components. -/
  | datetime
  /-- The words of a text. -/
  | words
  deriving DecidableEq

namespace Transform

/-- Every transform. -/
def all : List Transform :=
  [date, year, month, yearMonth, day, time, hour, minute, datetime, words]

/-- The name by which a view asks for a transform. -/
def name : Transform → String
  | date => "date"
  | year => "year"
  | month => "month"
  | yearMonth => "year-month"
  | day => "day"
  | time => "time"
  | hour => "hour"
  | minute => "minute"
  | datetime => "datetime"
  | words => "words"

/-- The transform of a name. -/
def ofName? (name : String) : Option Transform :=
  all.find? fun transform => transform.name == name

/-- Whether the transform reads a timestamp. -/
def isTemporal : Transform → Bool
  | words => false
  | _ => true

theorem ofName?_name (transform : Transform) : ofName? transform.name = some transform := by
  cases transform <;> decide

end Transform

/-- What a pattern does with the value inside it. -/
structure Descriptor where
  /-- The transform, applied first. -/
  transform : Option Transform
  /-- One row per item of an array. -/
  splay : Bool
  /-- Keep the rows only if the value passes the test; this goes before `splay` and `flatten`. -/
  emit : Bool
  /-- The value that passes the test of `emit`; without one, any value that counts as true. An
  explicit `null` is a value. -/
  equals : Option Json
  /-- Turn the test of `emit` around. -/
  invert : Bool
  /-- Put the items of an array into the key one by one; `splay` goes before it. -/
  flatten : Bool

namespace Descriptor

/-- The descriptor that sets nothing. -/
def none : Descriptor := ⟨.none, false, false, .none, false, false⟩

/-- Whether the value inside goes through unchanged. -/
def isPassthrough (d : Descriptor) : Bool :=
  d.transform.isNone && !d.splay && !d.emit && !d.flatten

end Descriptor

/-- A path with descriptors around it. -/
inductive Pattern where
  /-- The value at a path. -/
  | path (path : Path)
  /-- What a descriptor makes of the inner pattern. -/
  | access (inner : Pattern) (descriptor : Descriptor)

/-- The key of a view. -/
inductive KeyPattern where
  /-- A key that is one value. -/
  | single (pattern : Pattern)
  /-- A key that is an array, with a pattern for each part. -/
  | composite (parts : List Pattern)

/-- A view. -/
structure View where
  /-- The key of each row. -/
  key : KeyPattern
  /-- The value of each row, `null` without a pattern. -/
  value : Option Pattern
  /-- The reduce, which is carried along unread. -/
  reduce : Option Json

/-! ### Equality -/

/-- Equality of optional JSON values. -/
def Json.equalOption : Option Json → Option Json → Bool
  | some a, some b => a == b
  | none, none => true
  | _, _ => false

/-- Equality of descriptors, with JSON equality of the tested values. -/
def Descriptor.equal (a b : Descriptor) : Bool :=
  a.transform == b.transform && a.splay == b.splay && a.emit == b.emit &&
    Json.equalOption a.equals b.equals && a.invert == b.invert && a.flatten == b.flatten

/-- Equality of patterns; paths are equal if they are written alike. -/
def Pattern.equal : Pattern → Pattern → Bool
  | path a, path b => a == b
  | access a d, access b e => Pattern.equal a b && d.equal e
  | _, _ => false

/-- Equality of lists of patterns. -/
def Pattern.equalAll : List Pattern → List Pattern → Bool
  | [], [] => true
  | a :: as, b :: bs => a.equal b && equalAll as bs
  | _, _ => false

/-- Equality of keys. -/
def KeyPattern.equal : KeyPattern → KeyPattern → Bool
  | single a, single b => a.equal b
  | composite as, composite bs => Pattern.equalAll as bs
  | _, _ => false

/-- Equality of views. -/
def View.equal (a b : View) : Bool :=
  a.key.equal b.key &&
    (match a.value, b.value with
      | some p, some q => p.equal q
      | none, none => true
      | _, _ => false) &&
    Json.equalOption a.reduce b.reduce

instance : BEq Pattern := ⟨Pattern.equal⟩

instance : BEq KeyPattern := ⟨KeyPattern.equal⟩

instance : BEq View := ⟨View.equal⟩

end DocIndex
