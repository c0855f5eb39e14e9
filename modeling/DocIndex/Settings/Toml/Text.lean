import DocIndex.Json.Parser
import DocIndex.Settings.Toml.Layout
import DocIndex.Text.Word

/-!
# Texts and keys of settings files

Strings are basic, with escapes between double marks, or literal, with nothing special between
single marks; three marks make a string that may run over several lines. A key is a row of names
with points between them, each bare or a string of one line.
-/

namespace DocIndex.Toml

/-! ### Pieces of strings -/

/-- One piece of a string: the characters that it stands for, and what follows it. -/
abbrev Piece := List Char → Option (List Char × List Char)

/-- The character with the code point that so many hexadecimal digits spell. -/
def readCode (width : Nat) (text : List Char) : Option (List Char × List Char) := do
  let digits ← (text.take width).mapM Json.hexValue?
  let code := digits.foldl (fun n d => n * 16 + d) 0
  if digits.length = width ∧ code.isValidChar then return ([Char.ofNat code], text.drop width)
  else none

/-- What follows the backslash of an escape. -/
def readEscape : Piece
  | 'b' :: rest => some (['\x08'], rest)
  | 't' :: rest => some (['\t'], rest)
  | 'n' :: rest => some (['\n'], rest)
  | 'f' :: rest => some (['\x0c'], rest)
  | 'r' :: rest => some (['\r'], rest)
  | '"' :: rest => some (['"'], rest)
  | '\\' :: rest => some (['\\'], rest)
  | 'u' :: rest => readCode 4 rest
  | 'U' :: rest => readCode 8 rest
  | _ => none

/-- A piece of a literal string: a character. -/
def literalPiece : Piece
  | c :: rest => if isVisible c then some ([c], rest) else none
  | [] => none

/-- A piece of a basic string: a character or an escape. -/
def basicPiece : Piece
  | '\\' :: rest => readEscape rest
  | text => literalPiece text

/-- A text from its first character that is neither a space nor a line end. -/
def skipBlankLines : List Char → List Char
  | '\r' :: '\n' :: rest => skipBlankLines rest
  | c :: rest => if isSpace c ∨ c = '\n' then skipBlankLines rest else c :: rest
  | [] => []

/-- A piece of a literal string of several lines: a character or a line end. -/
def literalLinesPiece : Piece := fun text =>
  match readNewline text with
  | some rest => some (['\n'], rest)
  | none => literalPiece text

/-- A piece of a basic string of several lines. A backslash at the end of a line takes away the line
end and all blanks after it. -/
def basicLinesPiece : Piece
  | '\\' :: rest =>
    match readNewline (skipSpaces rest) with
    | some rest => some ([], skipBlankLines rest)
    | none => readEscape rest
  | text => literalLinesPiece text

/-! ### Strings -/

/-- Pieces up to a closing mark, at most one for each character of `steps`. -/
def readPieces (piece : Piece) (mark : Char) (steps : List Char) : Piece := fun text =>
  match steps with
  | [] => none
  | _ :: steps =>
    if text.head? = some mark then some ([], text.tail)
    else
      match piece text with
      | none => none
      | some (content, rest) =>
        (readPieces piece mark steps rest).map fun read => (content ++ read.1, read.2)

/-- Pieces up to three closing marks, at most one for each character of `steps`. One or two marks
belong to the string, also right before the closing ones. -/
def readLines (piece : Piece) (mark : Char) (steps : List Char) : Piece := fun text =>
  match steps with
  | [] => none
  | _ :: steps =>
    let marks := text.takeWhile (· == mark)
    let rest := text.dropWhile (· == mark)
    if 3 ≤ marks.length then
      if marks.length ≤ 5 then some (marks.drop 3, rest) else none
    else
      match piece rest with
      | none => none
      | some (content, rest) =>
        (readLines piece mark steps rest).map fun read => (marks ++ content ++ read.1, read.2)

/-- A string of one line after its opening mark. Each piece and the closing mark take a character
at least. -/
def readLine (piece : Piece) (mark : Char) : Piece := fun text => readPieces piece mark text text

/-- A string of several lines after its opening marks; a line end right after these is no part of
it. -/
def readBlock (piece : Piece) (mark : Char) : Piece := fun text =>
  let text := (readNewline text).getD text
  readLines piece mark text text

/-- A string of one line. -/
def readQuoted : Piece
  | '"' :: rest => readLine basicPiece '"' rest
  | '\'' :: rest => readLine literalPiece '\'' rest
  | _ => none

/-- A string. -/
def readString : Piece
  | '"' :: '"' :: '"' :: rest => readBlock basicLinesPiece '"' rest
  | '\'' :: '\'' :: '\'' :: rest => readBlock literalLinesPiece '\'' rest
  | text => readQuoted text

/-! ### Keys -/

/-- The names of a key, outermost first. -/
abbrev Key := List String

/-- How many names a key has to stay below. -/
def keyLimit : Nat := 80

/-- Whether a character may stand in a bare name. -/
def isBareChar (c : Char) : Bool := Text.isWordChar c && c != '\''

/-- One name of a key. -/
def readName (text : List Char) : Option (String × List Char) :=
  match text with
  | '"' :: _ | '\'' :: _ => (readQuoted text).map fun read => (String.ofList read.1, read.2)
  | text =>
    match text.takeWhile isBareChar with
    | [] => none
    | name => some (String.ofList name, text.dropWhile isBareChar)

/-- Names with points between them and spaces around each, at most `fuel` of them. -/
def readNames : Nat → List Char → Option (Key × List Char)
  | 0, _ => none
  | fuel + 1, text =>
    match readName (skipSpaces text) with
    | none => none
    | some (name, rest) =>
      match skipSpaces rest with
      | '.' :: rest => (readNames fuel rest).map fun read => (name :: read.1, read.2)
      | rest => some ([name], rest)

/-- A key with the spaces around it. -/
def readKey (text : List Char) : Option (Key × List Char) := readNames (keyLimit - 1) text

end DocIndex.Toml
