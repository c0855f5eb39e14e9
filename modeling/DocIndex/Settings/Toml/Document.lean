import DocIndex.Settings.Toml.Tree
import DocIndex.Settings.Toml.Value

/-!
# Settings files

A TOML text is a row of statements, each on a line of its own: bindings of keys to values, headers
that name the table which the bindings after them belong to, and headers that add a table to a row
of tables. A text of any other form, or one that binds a name twice, has no tree.
-/

namespace DocIndex.Toml

/-- A statement. -/
inductive Statement where
  /-- A key has a value. -/
  | binding (key : Key) (node : Node)
  /-- The bindings that follow belong to a table. -/
  | header (key : Key)
  /-- The bindings that follow belong to a new table in a row. -/
  | rowHeader (key : Key)

/-! ### Reading -/

/-- A statement at the front of a text. -/
def readStatement (text : List Char) : Option (Statement × List Char) :=
  match text with
  | '[' :: '[' :: rest => do
    let (key, rest) ← readKey rest
    match rest with
    | ']' :: ']' :: rest => return (.rowHeader key, rest)
    | _ => none
  | '[' :: rest => do
    let (key, rest) ← readKey rest
    match rest with
    | ']' :: rest => return (.header key, rest)
    | _ => none
  | text => (readBinding (readValue depthLimit) text).map fun read =>
      (.binding read.1.1 read.1.2, read.2)

/-- The statements of a text; it has at most `fuel` lines and statements. -/
def readStatements : Nat → List Char → Option (List Statement)
  | 0, _ => none
  | fuel + 1, text =>
    match readLineEnd text with
    | some [] => some []
    | some rest => readStatements fuel rest
    | none => do
      let (statement, rest) ← readStatement (skipSpaces text)
      let rest ← readLineEnd rest
      return statement :: (← readStatements fuel rest)

/-! ### Building -/

/-- The table that bindings go to, and the tables so far. -/
structure Document where
  /-- The key of the header above. -/
  current : Key
  /-- The members of the outermost table. -/
  members : Table

namespace Document

/-- The document without statements. -/
def empty : Document := ⟨[], []⟩

/-- Adds a statement. -/
def add (document : Document) : Statement → Option Document
  | .binding key node =>
    (Table.changeAt false (Table.bind key node) document.current .written document.members).map
      fun members => { document with members }
  | .header key =>
    (Table.openTable key .written document.members).map fun members => ⟨key, members⟩
  | .rowHeader key =>
    (Table.openNext key .written document.members).map fun members => ⟨key, members⟩

end Document

/-- A text without a byte order mark at its start. -/
def dropByteOrderMark : List Char → List Char
  | '\uFEFF' :: rest => rest
  | text => text

/-- The members of the outermost table of a text, if it can be read. -/
def parse? (text : List Char) : Option (List (String × SettingTree)) := do
  let text := dropByteOrderMark text
  let statements ← readStatements (text.length + 1) text
  let document ← statements.foldlM Document.add .empty
  rootMembers? document.members

end DocIndex.Toml
