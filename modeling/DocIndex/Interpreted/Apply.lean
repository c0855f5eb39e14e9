import DocIndex.Interpreted
import DocIndex.Pattern.Basic
import DocIndex.Text.Word
import DocIndex.Time.Timestamp

/-!
# Applying patterns

The interpretation of a pattern: its path is resolved in the document, then each descriptor is
applied to what is inside it, first the transform, then at most one of `emit`, `splay` and
`flatten`. A descriptor that sets none of these lets its value through as it is; any other sees the
value without the annotation that an inner descriptor gave it.
-/

namespace DocIndex

/-- What holds for all views that are compiled together. -/
structure Options where
  /-- The transform `minute` gives the hour, as in old indexes. -/
  legacyMinute : Bool
  deriving DecidableEq

/-- The options by default. -/
def Options.default : Options := ⟨false⟩

/-- An array of strings. -/
def Json.strings (texts : List String) : Json := .arr (texts.map .str)

/-- The component of a timestamp that a transform asks for. -/
def Timestamp.component (t : Timestamp) (options : Options) : Transform → Json
  | .date => .strings t.date
  | .year => .str t.year
  | .month => .str t.month
  | .yearMonth => .strings [t.year, t.month]
  | .day => .str t.day
  | .time => .strings t.time
  | .hour => .str t.hour
  | .minute => .str (if options.legacyMinute then t.hour else t.minute)
  | .datetime => .strings t.datetime
  | .words => .null

namespace Transform

/-- The words of a string, if it has any. -/
def wordsOf? : Json → Option Json
  | .str text =>
    match Text.words text with
    | [] => none
    | first :: others => some (.strings (first :: others))
  | _ => none

/-- What a transform makes of a value, if it can read it. -/
def onValue? (transform : Transform) (options : Options) (value : Json) : Option Json :=
  if transform.isTemporal then
    (Timestamp.ofJson? value).map fun timestamp => timestamp.component options transform
  else wordsOf? value

/-- The outcome of a transform; an absent value stays as it is. -/
def apply (transform : Transform) (options : Options) (input : Interpreted) : Interpreted :=
  if input.isAbsent then input
  else
    match transform.onValue? options input.payload with
    | some value => .plain value
    | none => .failed

end Transform

namespace Descriptor

/-- The value that a descriptor's annotation applies to. -/
def transformed (d : Descriptor) (options : Options) (input : Interpreted) : Interpreted :=
  match d.transform with
  | some transform => transform.apply options input
  | .none => input.strip

/-- Whether a value passes the test of `emit`, before `invert`. -/
def isMatch (d : Descriptor) (value : Interpreted) : Bool :=
  match d.equals with
  | .none => value.isTruthy
  | some expected =>
    match value with
    | .plain found => found == expected
    | _ => false

/-- One row per item of an array; anything else gives no rows. -/
def splayed : Interpreted → Interpreted
  | .plain (.arr items) => .fanout items
  | _ => .fanout []

/-- The items of an array with at least one item as key components; anything else stays. -/
def flattened : Interpreted → Interpreted
  | .plain (.arr (item :: items)) => .flattenable (item :: items)
  | value => value

/-- A transformed value with the annotation that a descriptor gives it. -/
def annotate (d : Descriptor) (value : Interpreted) : Interpreted :=
  if d.emit then .guard value.payload (d.isMatch value != d.invert)
  else if d.splay then splayed value
  else if d.flatten then flattened value
  else value

/-- What a descriptor makes of the outcome inside it. -/
def apply (d : Descriptor) (options : Options) (input : Interpreted) : Interpreted :=
  if d.isPassthrough then input else d.annotate (d.transformed options input)

end Descriptor

/-- What a pattern gives on a document. -/
def Pattern.interpret (options : Options) (document : Json) : Pattern → Interpreted
  | path p => Interpreted.ofResolved (p.resolve document)
  | access inner descriptor => descriptor.apply options (inner.interpret options document)

end DocIndex
