import DocIndex.Json.Parser
import DocIndex.Json.Printer
import DocIndex.Row.Codec
import DocIndex.Text.Blank
import DocIndex.View.Compiled

/-!
# Documents as text

Documents are read from one JSON array, from one JSON value, or from lines with a JSON value each;
the first character and whether the whole text is one value decide which. Rows are written one
object on a line.
-/

namespace DocIndex

/-- Why a text holds no documents. -/
inductive DocumentsError where
  /-- The text starts like an array but is not one. -/
  | notArray
  /-- The line of this number, counted from one, is no JSON value. -/
  | invalidLine (number : Nat)
  deriving DecidableEq

/-- The message of a fault in a text of documents. -/
def DocumentsError.message : DocumentsError → String
  | notArray => "Documents are not a valid JSON array"
  | invalidLine number => "Invalid JSON on line " ++ String.ofList (Text.ofNat number)

namespace DocumentText

/-- The lines of a text without their line feeds; a last line that is empty does not count. -/
def splitLines : List Char → List (List Char)
  | [] => []
  | c :: rest =>
    if c = '\n' then [] :: splitLines rest
    else
      match splitLines rest with
      | line :: lines => (c :: line) :: lines
      | [] => [[c]]

/-- Whether a line holds nothing but white space. -/
def isBlankLine (line : List Char) : Bool := line.all Text.isBlank

/-- The values of the lines that are not blank, the first of them numbered `number`. -/
def readLines (number : Nat) : List (List Char) → Except DocumentsError (List Json)
  | [] => .ok []
  | line :: lines =>
    if isBlankLine line then readLines (number + 1) lines
    else
      match Json.parseWithin? Json.depthLimit line with
      | none => .error (.invalidLine number)
      | some value => (readLines (number + 1) lines).map (value :: ·)

/-- The documents of a text. -/
def read (text : List Char) : Except DocumentsError (List Json) :=
  let trimmed := Text.trimStart text
  match trimmed with
  | '[' :: _ =>
    match Json.parseWithin? Json.depthLimit trimmed with
    | some (.arr items) => .ok items
    | _ => .error .notArray
  | _ =>
    match Json.parseWithin? Json.depthLimit trimmed with
    | some value => .ok [value]
    | none => readLines 1 (splitLines text)

/-- Rows as lines of JSON. -/
def ofRows (rows : List Row) : List Char :=
  rows.flatMap fun row => Json.compactChars row.toJson ++ ['\n']

/-- What is written so far: lines, and the number of rows that they hold. -/
structure Written where
  /-- The lines. -/
  text : String
  /-- The number of rows. -/
  count : Nat

/-- Writes a row on a line of its own. -/
def Written.addRow (written : Written) (row : Row) : Written :=
  ⟨written.text ++ String.ofList (Json.compactChars row.toJson ++ ['\n']), written.count + 1⟩

/-- Writes the rows of several documents, one document after another. -/
def write (view : CompiledView) (documents : List Json) : Written :=
  documents.foldl (fun written document => (view.rows document).foldl Written.addRow written) ⟨"", 0⟩

/-- The rows of several documents as lines of JSON. -/
def writeRows (view : CompiledView) (documents : List Json) : String := (write view documents).text

end DocumentText

end DocIndex
