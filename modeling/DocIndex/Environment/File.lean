import DocIndex.Environment.Value
import DocIndex.Text.Blank
import DocIndex.Text.Digit

/-!
# Environment files

A file that adds variables which are not set yet, one `NAME=value` on a line. Marks and escapes may
carry a line over its end. The file is read up to the first line that is not of this form or not
in UTF-8; the variables before that line stay.
-/

namespace DocIndex.Environment

/-! ### Lines -/

/-- The lines of a file with their ends. -/
def physicalLines : List UInt8 → List (List UInt8)
  | [] => []
  | byte :: rest =>
    if byte = 10 then [byte] :: physicalLines rest
    else
      match physicalLines rest with
      | [] => [[byte]]
      | line :: lines => (byte :: line) :: lines

/-- The characters of a line, if it is in UTF-8. -/
def decodeLine (bytes : List UInt8) : Option (List Char) :=
  (String.fromUTF8? ⟨bytes.toArray⟩).map String.toList

/-- A file without a byte order mark at its start. -/
def dropByteOrderMark : List UInt8 → List UInt8
  | 0xEF :: 0xBB :: 0xBF :: rest => rest
  | bytes => bytes

/-- Where a line stands after some of its characters. -/
inductive LineState where
  /-- Nothing is open. -/
  | complete
  /-- After a blank. -/
  | blank
  /-- After a backslash. -/
  | escape
  /-- Between marks, which are double or single. -/
  | marked (double : Bool)
  /-- After a backslash between marks. -/
  | markedEscape (double : Bool)
  /-- Behind a `#` that a blank stands before. -/
  | comment
  deriving DecidableEq

/-- What a character opens outside of marks. -/
def opened (c : Char) : LineState :=
  if c = '\\' then .escape
  else if c = '"' then .marked true
  else if c = '\'' then .marked false
  else .complete

/-- Where a line stands after one more character. Of two blanks the second is not looked at. -/
def LineState.next : LineState → Char → LineState
  | complete, c => if Text.isBlank c ∧ c ≠ '\n' ∧ c ≠ '\r' then blank else opened c
  | blank, c => if c = '#' then comment else opened c
  | escape, _ => complete
  | marked double, c =>
    if c = '\\' then markedEscape double
    else if c = (if double then '"' else '\'') then complete
    else marked double
  | markedEscape double, _ => marked double
  | comment, _ => comment

/-- The characters before a comment, and where the line stands at its end. -/
def scan : LineState → List Char → List Char × LineState
  | state, [] => ([], state)
  | state, c :: rest =>
    match state.next c with
    | .comment => ([], .comment)
    | next => (c :: (scan next rest).1, (scan next rest).2)

/-- A line without its end. -/
def dropLineEnd (line : List Char) : List Char :=
  match line.reverse with
  | '\n' :: '\r' :: rest | '\n' :: rest => rest.reverse
  | _ => line

/-- The lines of a file, each with the lines that carry it on, without comments that a blank stands
before. The list ends with none if the file does not end well; what was taken of an open line stands
in front. -/
def logicalLines : List Char → LineState → List (Option (List Char)) → List (Option (List Char))
  | _, state, [] => if state = .complete then [] else [none]
  | _, _, none :: _ => [none]
  | taken, state, some line :: lines =>
    let whole := taken ++ line
    if (Text.trimStart whole).head? = some '#' then some [] :: logicalLines [] .complete lines
    else
      match scan state line with
      | (_, .complete) => some (dropLineEnd whole) :: logicalLines [] .complete lines
      | (kept, .comment) => some (taken ++ kept) :: logicalLines [] .complete lines
      | (_, state) => logicalLines whole state lines

/-- The lines of an environment file. -/
def linesOf (bytes : List UInt8) : List (Option (List Char)) :=
  logicalLines [] .complete ((physicalLines (dropByteOrderMark bytes)).map decodeLine)

/-! ### Bindings -/

/-- Whether a character is an ASCII letter or an underscore. -/
def isNameStart (c : Char) : Bool :=
  (Nat.ble 97 c.toNat && Nat.ble c.toNat 122) || (Nat.ble 65 c.toNat && Nat.ble c.toNat 90) ||
    c == '_'

/-- Whether a character may stand in a name. -/
def isNameChar (c : Char) : Bool := isNameStart c || Text.isDigit c || c == '.'

/-- A name at the front of a line, and what follows it and the blanks behind it. -/
def readName (line : List Char) : Option (List Char × List Char) :=
  match line with
  | [] => none
  | c :: _ =>
    if isNameStart c then
      some (line.takeWhile isNameChar, Text.trimStart (line.dropWhile isNameChar))
    else none

/-- What follows an equals sign and the blanks behind it. -/
def expectEquals : List Char → Option (List Char)
  | '=' :: rest => some (Text.trimStart rest)
  | _ => none

/-- A name and the text after its equals sign; the word `export` may stand before the name. -/
def readBinding (line : List Char) : Option (List Char × List Char) := do
  let (name, rest) ← readName line
  match expectEquals rest with
  | some value => return (name, value)
  | none =>
    if name = ['e', 'x', 'p', 'o', 'r', 't'] then
      let (name, rest) ← readName rest
      return (name, ← expectEquals rest)
    else none

/-- The variable of a line; a blank line or a comment has none. -/
def readLine (vars : Variables) (line : List Char) : Option (Option (String × String)) :=
  match Text.trim line with
  | [] | '#' :: _ => some none
  | line => do
    let (name, text) ← readBinding line
    match text with
    | [] | '#' :: _ => return some (String.ofList name, "")
    | text => return some (String.ofList name, String.ofList (← readValue vars text))

/-! ### Loading -/

/-- Whether a text can be the value of a variable, which ends at a zero. -/
def isStorable (text : String) : Bool := !text.toList.contains '\x00'

/-- Adds the variables of lines up to the first that cannot be read; a new value that cannot be
stored ends the run. -/
def addLines (vars : Variables) : List (Option (List Char)) → Option Variables
  | [] | none :: _ => some vars
  | some line :: lines =>
    match readLine vars line with
    | none => some vars
    | some none => addLines vars lines
    | some (some (name, value)) =>
      if !Dict.contains name vars && !isStorable value then none
      else addLines (setDefault vars name value) lines

/-- The variables with those of an environment file that are not set yet. -/
def addFile (vars : Variables) (bytes : List UInt8) : Option Variables :=
  addLines vars (linesOf bytes)

end DocIndex.Environment
