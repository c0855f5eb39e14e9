import DocIndex.Settings.Toml.DateTime
import DocIndex.Settings.Toml.Number
import DocIndex.Settings.Toml.Table

/-!
# Values of settings files

Strings, numbers, truth values, dates and times, and the arrays and inline tables of values. An
array may run over several lines and end in a comma, an inline table may not.
-/

namespace DocIndex.Toml

/-- A reader of values. -/
abbrev ValueReader := List Char → Option (Node × List Char)

/-! ### Plain values -/

/-- A number, a date or a time. -/
def readDigital : ValueReader := fun text =>
  match readDateTime text with
  | some (content, rest) => some (.date (String.ofList content), rest)
  | none => (readNumber text).map fun read => (.leaf read.1, read.2)

/-- A value that is neither an array nor an inline table. -/
def readPlain : ValueReader := fun text =>
  match text with
  | 't' :: 'r' :: 'u' :: 'e' :: rest => some (.leaf (.bool true), rest)
  | 'f' :: 'a' :: 'l' :: 's' :: 'e' :: rest => some (.leaf (.bool false), rest)
  | '"' :: _ | '\'' :: _ =>
    (readString text).map fun read => (.leaf (.string (String.ofList read.1)), read.2)
  | text => readDigital text

/-! ### Arrays -/

/-- The items of an array up to its closing bracket, at most one for each character of `steps`. -/
def readItems (item : ValueReader) (steps text : List Char) :
    Option (List Node × List Char) :=
  match steps with
  | [] => none
  | _ :: steps =>
    match skipLayout text with
    | none => none
    | some (']' :: rest) => some ([], rest)
    | some text =>
      match item text with
      | none => none
      | some (node, rest) =>
        match skipLayout rest with
        | some (']' :: rest) => some ([node], rest)
        | some (',' :: rest) => (readItems item steps rest).map fun read => (node :: read.1, read.2)
        | _ => none

/-- What follows an opening bracket. Each item and the closing bracket take a character at least. -/
def readArray (item : ValueReader) : ValueReader := fun text =>
  (readItems item text text).map fun read => (.array read.1, read.2)

/-! ### Inline tables -/

/-- A key, an equals sign and a value, with the spaces before the value. -/
def readBinding (item : ValueReader) (text : List Char) :
    Option ((Key × Node) × List Char) := do
  let (key, rest) ← readKey text
  match rest with
  | '=' :: rest =>
    let (node, rest) ← item (skipSpaces rest)
    return ((key, node), rest)
  | _ => none

/-- One or more bindings up to a closing brace, at most one for each character of `steps`. -/
def readBindings (item : ValueReader) (steps text : List Char) :
    Option (List (Key × Node) × List Char) :=
  match steps with
  | [] => none
  | _ :: steps =>
    match readBinding item text with
    | none => none
    | some (binding, rest) =>
      match skipSpaces rest with
      | '}' :: rest => some ([binding], rest)
      | ',' :: rest => (readBindings item steps rest).map fun read => (binding :: read.1, read.2)
      | _ => none

/-- The table of some bindings, if they do not get in each other's way. -/
def tableOf? (bindings : List (Key × Node)) : Option Node :=
  (bindings.foldlM (fun members binding => Table.bind binding.1 binding.2 .written members) []).map
    (.table .closed)

/-- What follows an opening brace. Each binding takes a character at least. -/
def readInline (item : ValueReader) : ValueReader := fun text =>
  match skipSpaces text with
  | '}' :: rest => some (.table .closed [], rest)
  | text => do
    let (bindings, rest) ← readBindings item text text
    return (← tableOf? bindings, rest)

/-! ### Values -/

/-- A value with fewer than `depth` arrays and inline tables inside each other. -/
def readValue : Nat → ValueReader
  | 0, _ => none
  | depth + 1, text =>
    match text with
    | '[' :: rest => if depth = 0 then none else readArray (readValue depth) rest
    | '\x7b' :: rest => if depth = 0 then none else readInline (readValue depth) rest
    | text => readPlain text

/-- How many arrays and inline tables a value has to stay below. -/
def depthLimit : Nat := 80

end DocIndex.Toml
