/-!
# Words

The words of a text are its longest runs of ASCII letters, digits, underscores, apostrophes and
hyphens, in lower case and in order.
-/

namespace DocIndex.Text

/-- Whether a character may stand in a word. -/
def isWordChar (c : Char) : Bool :=
  let n := c.toNat
  (Nat.ble 97 n && Nat.ble n 122) || (Nat.ble 65 n && Nat.ble n 90) ||
    (Nat.ble 48 n && Nat.ble n 57) || c == '_' || c == '\'' || c == '-'

/-- An ASCII capital's small letter; any other character stays as it is. -/
def lower (c : Char) : Char :=
  if Nat.ble 65 c.toNat && Nat.ble c.toNat 90 then Char.ofNat (c.toNat + 32) else c

/-- A text with its ASCII capitals as small letters. -/
def lowercase (text : String) : String := String.ofList (text.toList.map lower)

/-- A run in front of other runs, unless it is empty. -/
def consRun (run : List Char) (runs : List (List Char)) : List (List Char) :=
  match run with
  | [] => runs
  | _ :: _ => run :: runs

/-- The run of word characters that a text starts with, which may be empty, and the runs that
come after it. -/
def splitRuns : List Char → List Char × List (List Char)
  | [] => ([], [])
  | c :: rest =>
    let (run, runs) := splitRuns rest
    if isWordChar c then (c :: run, runs) else ([], consRun run runs)

/-- The words of a text. -/
def wordsOf (text : List Char) : List (List Char) :=
  (consRun (splitRuns text).1 (splitRuns text).2).map fun run => run.map lower

/-- The words of a text. -/
def words (text : String) : List String :=
  (wordsOf text.toList).map String.ofList

end DocIndex.Text
