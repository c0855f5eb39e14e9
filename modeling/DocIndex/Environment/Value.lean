import DocIndex.Environment.Basic
import DocIndex.Text.Alphanumeric

/-!
# Values in an environment file

What the text after an equals sign stands for. The reader is a machine that takes one character at
a time: it takes away single and double marks, reads escapes, and puts the value of a variable in
the place of `$name` and of `${name}`. Nothing but a comment may follow the first blank outside of
marks.
-/

namespace DocIndex.Environment

/-- Where a reader stands in a value. -/
inductive Place where
  /-- Outside of marks, or between double marks. -/
  | text (marked : Bool)
  /-- Between single marks. -/
  | single
  /-- After a backslash. -/
  | escape (marked : Bool)
  /-- In a name that a dollar sign stands before. -/
  | name (marked : Bool) (taken : List Char)
  /-- In a name between braces. -/
  | braced (marked : Bool) (taken : List Char)
  /-- Behind the value. -/
  | behind
  /-- In the comment behind the value. -/
  | comment
  deriving DecidableEq

/-- The character that an escape stands for. -/
def escape? (c : Char) : Option Char :=
  if c = 'n' then some '\n'
  else if c = '\\' ∨ c = '\'' ∨ c = '"' ∨ c = '$' ∨ c = ' ' then some c
  else none

/-- Whether a character separates a value from its comment. -/
def isGap (c : Char) : Bool := c == ' ' || c == '\t'

/-- Takes a character: what it adds to the value, and where the reader stands then. A character
that ends a name without braces is taken as it is, whatever it is. -/
def step (vars : Variables) : Place → Char → Option (List Char × Place)
  | .text marked, c =>
    if c = '$' then some ([], .name marked [])
    else if c = '\\' then some ([], .escape marked)
    else if c = '"' then some ([], .text !marked)
    else if marked then some ([c], .text true)
    else if c = '\'' then some ([], .single)
    else if isGap c then some ([], .behind)
    else some ([c], .text false)
  | .single, c => if c = '\'' then some ([], .text false) else some ([c], .single)
  | .escape marked, c => (escape? c).map fun d => ([d], .text marked)
  | .name marked taken, c =>
    if Text.isAlphanumeric c then some ([], .name marked (taken ++ [c]))
    else if c = '{' ∧ taken = [] then some ([], .braced marked [])
    else if c = '$' then some (valueOf vars taken, .name marked [])
    else some (valueOf vars taken ++ [c], .text marked)
  | .braced marked taken, c =>
    if c = '}' then some (valueOf vars taken, .text marked)
    else some ([], .braced marked (taken ++ [c]))
  | .behind, c =>
    if isGap c then some ([], .behind)
    else if c = '#' then some ([], .comment)
    else none
  | .comment, _ => some ([], .comment)

/-- What the end of the text adds to the value; marks and braces have to be closed by then. -/
def finish (vars : Variables) : Place → Option (List Char)
  | .text marked | .escape marked => if marked then none else some []
  | .name marked taken => if marked then none else some (valueOf vars taken)
  | .single | .braced _ _ => none
  | .behind | .comment => some []

/-- The rest of a value. -/
def readFrom (vars : Variables) : Place → List Char → Option (List Char)
  | place, [] => finish vars place
  | place, c :: rest =>
    match step vars place c with
    | none => none
    | some (content, next) => (readFrom vars next rest).map (content ++ ·)

/-- The value that a text stands for. -/
def readValue (vars : Variables) (text : List Char) : Option (List Char) :=
  readFrom vars (.text false) text

end DocIndex.Environment
