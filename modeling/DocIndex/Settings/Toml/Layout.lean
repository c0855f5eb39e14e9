import DocIndex.Text.Digit

/-!
# Layout of settings files

The spaces, comments and line ends between the parts of a TOML text. Every reader takes the
characters that are left and answers with those that are left after it.
-/

namespace DocIndex.Toml

/-- Whether a character is a space or a tab. -/
def isSpace (c : Char) : Bool := c == ' ' || c == '\t'

/-- A text from its first character that is neither space nor tab. -/
def skipSpaces (text : List Char) : List Char := text.dropWhile isSpace

/-- Whether a character may stand by itself: any but the controls, of which only the tab may. -/
def isVisible (c : Char) : Bool := c == '\t' || (Nat.ble 32 c.toNat && c.toNat != 127)

/-- What follows a line end. -/
def readNewline : List Char → Option (List Char)
  | '\n' :: rest | '\r' :: '\n' :: rest => some rest
  | _ => none

/-- A text without a comment at its front. -/
def skipComment (text : List Char) : List Char :=
  match text with
  | '#' :: rest => rest.dropWhile isVisible
  | text => text

/-- What follows the rest of a line, on which only spaces and a comment may stand. -/
def readLineEnd (text : List Char) : Option (List Char) :=
  match skipComment (skipSpaces text) with
  | [] => some []
  | text => readNewline text

/-- A text, which a comment may stand at the front of, from its first character that belongs to no
space, comment or line end; a comment has to end with its line. -/
def skipFrom : Bool → List Char → Option (List Char)
  | inComment, [] => if inComment then none else some []
  | _, '\n' :: rest => skipFrom false rest
  | _, '\r' :: '\n' :: rest => skipFrom false rest
  | true, c :: rest => if isVisible c then skipFrom true rest else none
  | false, c :: rest =>
    if isSpace c then skipFrom false rest
    else if c = '#' then skipFrom true rest
    else some (c :: rest)

/-- A text from its first character that belongs to no space, comment or line end. -/
def skipLayout (text : List Char) : Option (List Char) := skipFrom false text

end DocIndex.Toml
