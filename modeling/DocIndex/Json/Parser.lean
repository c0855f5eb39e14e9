import DocIndex.Json.Numeral

/-!
# Reading JSON

Strict reading of JSON texts. Every reader takes the characters that are left and answers a value
and what follows it, or nothing. Arrays and objects nest at most as deep as a limit says, which is
also what the recursion runs on; of two members with one key the later counts; a numeral too large
for a double, a lone surrogate and an unescaped control character are no JSON.
-/

namespace DocIndex.Json

/-! ### Blanks -/

/-- The four characters that may stand between the parts of a JSON text. -/
def isBlank (c : Char) : Bool :=
  c == ' ' || c == '\t' || c == '\n' || c == '\r'

/-- The text from its first character that is no blank. -/
def skipBlanks (text : List Char) : List Char := text.dropWhile isBlank

/-! ### Strings -/

/-- The value of a hexadecimal digit of either case. -/
def hexValue? (c : Char) : Option Nat :=
  let n := c.toNat
  if Nat.ble 48 n && Nat.ble n 57 then some (n - 48)
  else if Nat.ble 97 n && Nat.ble n 102 then some (n - 87)
  else if Nat.ble 65 n && Nat.ble n 70 then some (n - 55)
  else none

/-- The sixteen-bit unit that four hexadecimal digits spell. -/
def readUnit : List Char → Option (Nat × List Char)
  | a :: b :: c :: d :: rest => do
    let a ← hexValue? a
    let b ← hexValue? b
    let c ← hexValue? c
    let d ← hexValue? d
    return (((a * 16 + b) * 16 + c) * 16 + d, rest)
  | _ => none

/-- The second half of a surrogate pair, in full notation. -/
def readLowSurrogate : List Char → Option (Nat × List Char)
  | '\\' :: 'u' :: text =>
    match readUnit text with
    | some (unit, rest) =>
      if Nat.ble 0xDC00 unit && Nat.blt unit 0xE000 then some (unit - 0xDC00, rest) else none
    | none => none
  | _ => none

/-- The character that a unit starts, which takes a second unit if the first is a high surrogate. -/
def readUnicode (text : List Char) : Option (Char × List Char) :=
  match readUnit text with
  | none => none
  | some (unit, rest) =>
    if Nat.blt unit 0xD800 || Nat.ble 0xE000 unit then some (Char.ofNat unit, rest)
    else if Nat.blt unit 0xDC00 then
      (readLowSurrogate rest).map fun low =>
        (Char.ofNat (0x10000 + (unit - 0xD800) * 0x400 + low.1), low.2)
    else none

/-- The character that an escape stands for, read from what follows the backslash. -/
def readEscape : List Char → Option (Char × List Char)
  | [] => none
  | c :: rest =>
    if c == '"' || c == '\\' || c == '/' then some (c, rest)
    else if c == 'b' then some ('\x08', rest)
    else if c == 't' then some ('\t', rest)
    else if c == 'n' then some ('\n', rest)
    else if c == 'f' then some ('\x0c', rest)
    else if c == 'r' then some ('\r', rest)
    else if c == 'u' then readUnicode rest
    else none

theorem length_readUnit {text rest : List Char} {unit : Nat}
    (h : readUnit text = some (unit, rest)) : rest.length < text.length := by
  unfold readUnit at h
  split at h
  · simp only [bind, Option.bind_eq_some_iff, pure, Option.some.injEq, Prod.mk.injEq] at h
    obtain ⟨_, _, _, _, _, _, _, _, _, hrest⟩ := h
    simp only [← hrest, List.length_cons]
    omega
  · simp at h

theorem length_readLowSurrogate {text rest : List Char} {low : Nat}
    (h : readLowSurrogate text = some (low, rest)) : rest.length < text.length := by
  unfold readLowSurrogate at h
  split at h
  · split at h
    · rename_i hunit
      split at h
      · simp only [Option.some.injEq, Prod.mk.injEq] at h
        have := length_readUnit hunit
        simp only [← h.2, List.length_cons]
        omega
      · simp at h
    · simp at h
  · simp at h

theorem length_readUnicode {text rest : List Char} {c : Char}
    (h : readUnicode text = some (c, rest)) : rest.length < text.length := by
  unfold readUnicode at h
  split at h
  · simp at h
  · rename_i hunit
    have hlt := length_readUnit hunit
    split at h
    · simp only [Option.some.injEq, Prod.mk.injEq] at h
      exact h.2 ▸ hlt
    · split at h
      · simp only [Option.map_eq_some_iff, Prod.mk.injEq] at h
        obtain ⟨low, hlow, _, rfl⟩ := h
        exact Nat.lt_trans (length_readLowSurrogate hlow) hlt
      · simp at h

theorem length_readEscape {text rest : List Char} {c : Char}
    (h : readEscape text = some (c, rest)) : rest.length < text.length := by
  cases text with
  | nil => simp [readEscape] at h
  | cons d text =>
    have hletter {e : Char} (h : some (e, text) = some (c, rest)) :
        rest.length < text.length + 1 := by
      simp only [Option.some.injEq, Prod.mk.injEq] at h
      exact h.2 ▸ Nat.lt_succ_self _
    simp only [readEscape] at h
    simp only [List.length_cons]
    split at h
    · exact hletter h
    split at h
    · exact hletter h
    split at h
    · exact hletter h
    split at h
    · exact hletter h
    split at h
    · exact hletter h
    split at h
    · exact hletter h
    split at h
    · exact Nat.lt_succ_of_lt (length_readUnicode h)
    · simp at h

/-- The characters of a string up to its closing mark. -/
def readString (text : List Char) : Option (List Char × List Char) :=
  match text with
  | [] => none
  | c :: rest =>
    if c == '"' then some ([], rest)
    else if c == '\\' then
      match _h : readEscape rest with
      | none => none
      | some (d, rest') => (readString rest').map fun read => (d :: read.1, read.2)
    else if c.toNat < 32 then none
    else (readString rest).map fun read => (c :: read.1, read.2)
termination_by text.length
decreasing_by
  · have := length_readEscape _h
    simp only [List.length_cons]
    omega
  · simp only [List.length_cons]
    omega

/-! ### Values -/

/-- The three names and the numbers. -/
def readScalar (text : List Char) : Option (Json × List Char) :=
  match text with
  | 'n' :: rest =>
    match rest with
    | 'u' :: 'l' :: 'l' :: rest => some (null, rest)
    | _ => none
  | 't' :: rest =>
    match rest with
    | 'r' :: 'u' :: 'e' :: rest => some (bool true, rest)
    | _ => none
  | 'f' :: rest =>
    match rest with
    | 'a' :: 'l' :: 's' :: 'e' :: rest => some (bool false, rest)
    | _ => none
  | text => do
    let (numeral, rest) ← Numeral.read text
    let number ← numeral.value?
    return (num number, rest)

/-- One or more items separated by commas, and the closing bracket. -/
def readItems (item : List Char → Option (Json × List Char)) :
    Nat → List Char → Option (List Json × List Char)
  | 0, _ => none
  | fuel + 1, text =>
    match item text with
    | none => none
    | some (x, rest) =>
      match skipBlanks rest with
      | ']' :: rest => some ([x], rest)
      | ',' :: rest => (readItems item fuel rest).map fun read => (x :: read.1, read.2)
      | _ => none

/-- What follows an opening bracket. -/
def readArray (item : List Char → Option (Json × List Char)) (text : List Char) :
    Option (Json × List Char) :=
  match skipBlanks text with
  | ']' :: rest => some (arr [], rest)
  | _ => (readItems item text.length text).map fun read => (arr read.1, read.2)

/-- A key, a colon and a value. -/
def readMember (item : List Char → Option (Json × List Char)) (text : List Char) :
    Option ((String × Json) × List Char) :=
  match skipBlanks text with
  | '"' :: text =>
    match readString text with
    | none => none
    | some (key, rest) =>
      match skipBlanks rest with
      | ':' :: rest => (item rest).map fun read => ((String.ofList key, read.1), read.2)
      | _ => none
  | _ => none

/-- One or more members separated by commas, and the closing brace. -/
def readMembers (item : List Char → Option (Json × List Char)) :
    Nat → List Char → Option (List (String × Json) × List Char)
  | 0, _ => none
  | fuel + 1, text =>
    match readMember item text with
    | none => none
    | some (member, rest) =>
      match skipBlanks rest with
      | '}' :: rest => some ([member], rest)
      | ',' :: rest => (readMembers item fuel rest).map fun read => (member :: read.1, read.2)
      | _ => none

/-- What follows an opening brace. -/
def readObject (item : List Char → Option (Json × List Char)) (text : List Char) :
    Option (Json × List Char) :=
  match skipBlanks text with
  | '}' :: rest => some (obj [], rest)
  | _ =>
    (readMembers item text.length text).map fun read => (obj (Dict.ofList read.1), read.2)

/-- The value at the front of a text, after blanks, with at most `depth` containers inside each
other. -/
def readValue (depth : Nat) (text : List Char) : Option (Json × List Char) :=
  match skipBlanks text with
  | '"' :: rest => (readString rest).map fun read => (str (String.ofList read.1), read.2)
  | '[' :: rest =>
    match depth with
    | 0 => none
    | depth + 1 => readArray (readValue depth) rest
  | '{' :: rest =>
    match depth with
    | 0 => none
    | depth + 1 => readObject (readValue depth) rest
  | text => readScalar text

/-- The value that makes up a whole text, with blanks around it. -/
def parseWithin? (depth : Nat) (text : List Char) : Option Json :=
  match readValue depth text with
  | some (x, rest) => if (skipBlanks rest).isEmpty then some x else none
  | none => none

/-- How deep the containers of a text may nest. -/
def depthLimit : Nat := 127

/-- The value of a JSON text. -/
def parse? (text : String) : Option Json := parseWithin? depthLimit text.toList

end DocIndex.Json
