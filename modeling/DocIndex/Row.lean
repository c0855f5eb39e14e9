import DocIndex.Interpreted.Apply

/-!
# Rows

The rows that the interpreted key and value of a view give for one document. A failing guard in a
composite key leaves no rows and a passing one takes no part in the key; a fan-out multiplies the
rows, those that came first varying slowest; the value's fan-out varies fastest of all.
-/

namespace DocIndex

/-- A row of an index. -/
structure Row where
  /-- The key under which the row is sorted. -/
  key : Json
  /-- The value that it carries. -/
  value : Json

/-- What the key of a view gives on a document. -/
inductive InterpretedKey where
  /-- A key that is one value. -/
  | single (key : Interpreted)
  /-- A key that is an array. -/
  | composite (parts : List Interpreted)

/-- What a key pattern gives on a document. -/
def KeyPattern.interpret (options : Options) (document : Json) : KeyPattern → InterpretedKey
  | single pattern => .single (pattern.interpret options document)
  | composite parts => .composite (parts.map (Pattern.interpret options document))

namespace InterpretedKey

/-- The keys that come of a key of one value. -/
def singleKeys : Interpreted → List Json
  | .fanout items => items
  | .guard value passes => if passes then [value] else []
  | other => [other.payload]

/-- Whether an outcome is a guard that fails. -/
def isFailingGuard : Interpreted → Bool
  | .guard _ passes => !passes
  | _ => false

/-- The components that one part of a composite key may put behind the components so far. -/
def choices : Interpreted → List (List Json)
  | .fanout items => items.map fun item => [item]
  | .flattenable items => [items]
  | .guard _ _ => [[]]
  | other => [[other.payload]]

/-- The keys so far, each with each choice of components behind it. -/
def extend (keys : List (List Json)) (part : Interpreted) : List (List Json) :=
  keys.flatMap fun key => (choices part).map fun components => key ++ components

/-- The keys that come of a composite key. -/
def compositeKeys (parts : List Interpreted) : List Json :=
  if parts.any isFailingGuard then []
  else (parts.foldl extend [[]]).map .arr

/-- The keys of a document's rows, before the value multiplies them. -/
def keys : InterpretedKey → List Json
  | single key => singleKeys key
  | composite parts => compositeKeys parts

end InterpretedKey

/-- The values that the interpreted value of a view gives to each key. -/
def rowValues : Option Interpreted → List Json
  | none => [.null]
  | some (.fanout items) => items
  | some other => [other.payload]

/-- The rows of a document. -/
def rows (key : InterpretedKey) (value : Option Interpreted) : List Row :=
  key.keys.flatMap fun key => (rowValues value).map fun value => ⟨key, value⟩

/-- The rows that a view gives on a document. -/
def View.rows (view : View) (options : Options) (document : Json) : List Row :=
  DocIndex.rows (view.key.interpret options document)
    (view.value.map (Pattern.interpret options document))

end DocIndex
