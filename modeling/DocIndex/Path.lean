import DocIndex.Json.Basic
import DocIndex.Number.Range
import DocIndex.Text.Digit

/-!
# Property paths

A path names a place in a document. Its text is a list of segments separated by points; a point
after a backslash belongs to the segment, and any other backslash stands for itself. Following a
path looks a segment up among the members of an object or, if it is a canonical decimal, among the
items of an array, and finds nothing anywhere else.
-/

namespace DocIndex

/-- A property path, as it is written. -/
structure Path where
  /-- The text, with its escapes. -/
  raw : String
  deriving DecidableEq

namespace Path

/-! ### Segments -/

/-- Puts a character in front of the first segment. -/
def consChar (c : Char) : List (List Char) → List (List Char)
  | [] => [[c]]
  | segment :: segments => (c :: segment) :: segments

/-- The segments of a path text; there is always at least one. -/
def splitSegments : List Char → List (List Char)
  | [] => [[]]
  | '\\' :: '.' :: rest => consChar '.' (splitSegments rest)
  | '.' :: rest => [] :: splitSegments rest
  | c :: rest => consChar c (splitSegments rest)

theorem exists_consChar (c : Char) (segments : List (List Char)) :
    ∃ segment others, consChar c segments = (c :: segment) :: others := by
  cases segments with
  | nil => exact ⟨[], [], rfl⟩
  | cons segment segments => exact ⟨segment, segments, rfl⟩

theorem consChar_ne_nil (c : Char) (segments : List (List Char)) : consChar c segments ≠ [] := by
  obtain ⟨segment, rest, heq⟩ := exists_consChar c segments
  rw [heq]
  exact List.cons_ne_nil _ _

theorem splitSegments_ne_nil (text : List Char) : splitSegments text ≠ [] := by
  fun_cases splitSegments text with
  | case1 | case3 => exact List.cons_ne_nil _ _
  | case2 | case4 => exact consChar_ne_nil _ _

/-- The property names of a path, outermost first, without escapes. -/
def segments (path : Path) : List String :=
  (splitSegments path.raw.toList).map String.ofList

/-- A segment with its points escaped. -/
def escapeSegment (segment : List Char) : List Char :=
  segment.flatMap fun c => if c = '.' then ['\\', '.'] else [c]

/-- The path text of a list of segments. -/
def joinSegments : List (List Char) → List Char
  | [] => []
  | [segment] => escapeSegment segment
  | segment :: segments => escapeSegment segment ++ '.' :: joinSegments segments

/-- The path through a list of property names. -/
def ofSegments (segments : List String) : Path :=
  ⟨String.ofList (joinSegments (segments.map String.toList))⟩

/-! ### Resolution -/

/-- The array index that a segment spells: decimal digits without a leading zero, below `2^64`. -/
def index? (segment : List Char) : Option Nat :=
  match segment with
  | '0' :: _ :: _ => none
  | _ =>
    match Text.natural? segment with
    | some i => if i < Range.unsigned64 then some i else none
    | none => none

/-- The value one segment further inside. -/
def step (value : Json) (segment : String) : Option Json :=
  match value with
  | .obj members => Dict.find? segment members
  | .arr items => (index? segment.toList).bind fun i => items[i]?
  | _ => none

/-- The value at the end of a list of segments. -/
def follow (value : Json) : List String → Option Json
  | [] => some value
  | segment :: segments => (step value segment).bind fun inner => follow inner segments

/-- The value that a path names in a document. -/
def resolve (path : Path) (document : Json) : Option Json :=
  follow document path.segments

end Path

end DocIndex
