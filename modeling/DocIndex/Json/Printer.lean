import DocIndex.Json.Numeral

/-!
# Writing JSON

Two written forms: `compact`, without any blank, and `pretty`, with one member or item on a line,
two blanks of indent for each level, and `[]` and `{}` for empty containers. In a string the
quotation mark, the backslash and the control characters are escaped, the latter by a letter where
there is one; every other character stands for itself.
-/

namespace DocIndex.Json

/-! ### Strings -/

/-- The hexadecimal digit of a number below sixteen, in lower case. -/
def hexDigit (n : Nat) : Char :=
  if n < 10 then Char.ofNat (48 + n) else Char.ofNat (87 + n)

/-- A character inside a written string. -/
def escapeChar (c : Char) : List Char :=
  if c = '"' then ['\\', '"']
  else if c = '\\' then ['\\', '\\']
  else if c = '\x08' then ['\\', 'b']
  else if c = '\t' then ['\\', 't']
  else if c = '\n' then ['\\', 'n']
  else if c = '\x0c' then ['\\', 'f']
  else if c = '\r' then ['\\', 'r']
  else if c.toNat < 32 then
    ['\\', 'u', '0', '0', hexDigit (c.toNat / 16), hexDigit (c.toNat % 16)]
  else [c]

/-- A written string with its quotation marks. -/
def quote (text : String) : List Char :=
  '"' :: (text.toList.flatMap escapeChar ++ ['"'])

/-! ### Compact form -/

mutual

/-- The value without any blank. -/
def compactChars : Json → List Char
  | null => ['n', 'u', 'l', 'l']
  | bool true => ['t', 'r', 'u', 'e']
  | bool false => ['f', 'a', 'l', 's', 'e']
  | num n => n.text
  | str text => quote text
  | arr [] => ['[', ']']
  | arr (x :: xs) => '[' :: (compactChars x ++ compactItems xs)
  | obj [] => ['{', '}']
  | obj ((k, x) :: xs) => '{' :: (quote k ++ ':' :: (compactChars x ++ compactMembers xs))
termination_by structural x => x

/-- The items after the first one, and the closing bracket. -/
def compactItems : List Json → List Char
  | [] => [']']
  | x :: xs => ',' :: (compactChars x ++ compactItems xs)
termination_by structural xs => xs

/-- The members after the first one, and the closing brace. -/
def compactMembers : List (String × Json) → List Char
  | [] => ['}']
  | (k, x) :: xs => ',' :: (quote k ++ ':' :: (compactChars x ++ compactMembers xs))
termination_by structural xs => xs

end

/-- The compact text of a value. -/
def compact (x : Json) : String := String.ofList (compactChars x)

/-! ### Pretty form -/

/-- A line break and the indent of a level. -/
def newline (level : Nat) : List Char := '\n' :: List.replicate (2 * level) ' '

mutual

/-- The value with its containers spread over lines, at a level of indent. -/
def prettyChars (level : Nat) : Json → List Char
  | null => ['n', 'u', 'l', 'l']
  | bool true => ['t', 'r', 'u', 'e']
  | bool false => ['f', 'a', 'l', 's', 'e']
  | num n => n.text
  | str text => quote text
  | arr [] => ['[', ']']
  | arr (x :: xs) =>
    '[' :: (newline (level + 1) ++ prettyChars (level + 1) x ++ prettyItems level xs)
  | obj [] => ['{', '}']
  | obj ((k, x) :: xs) =>
    '{' :: (newline (level + 1) ++ quote k ++ [':', ' '] ++ prettyChars (level + 1) x ++
      prettyMembers level xs)
termination_by structural x => x

/-- The items after the first one, and the closing bracket on its line. -/
def prettyItems (level : Nat) : List Json → List Char
  | [] => newline level ++ [']']
  | x :: xs => ',' :: (newline (level + 1) ++ prettyChars (level + 1) x ++ prettyItems level xs)
termination_by structural xs => xs

/-- The members after the first one, and the closing brace on its line. -/
def prettyMembers (level : Nat) : List (String × Json) → List Char
  | [] => newline level ++ ['}']
  | (k, x) :: xs =>
    ',' :: (newline (level + 1) ++ quote k ++ [':', ' '] ++ prettyChars (level + 1) x ++
      prettyMembers level xs)
termination_by structural xs => xs

end

/-- The pretty text of a value, without a line break at its end. -/
def pretty (x : Json) : String := String.ofList (prettyChars 0 x)

end DocIndex.Json
