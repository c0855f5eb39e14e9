import DocIndex.Number.Range
import DocIndex.Text.Digit

/-!
# Revisions

The text of a revision: the generation, a hyphen and a suffix that the writer chooses. Each write
counts the generation up by one, in sixty-four bits; a revision of another form counts as
generation zero.
-/

namespace DocIndex.Revision

/-- The part of a text before its first hyphen, if it has one. -/
def beforeHyphen? : List Char → Option (List Char)
  | [] => none
  | c :: rest => if c = '-' then some [] else (beforeHyphen? rest).map (c :: ·)

/-- The generation that a revision spells. -/
def generation? (revision : String) : Option Nat :=
  (beforeHyphen? revision.toList).bind (Text.unsigned? Range.unsigned64)

/-- The generation of a stored document; without a proper revision it is zero. -/
def generation (revision : Option String) : Nat :=
  (revision.bind generation?).getD 0

/-- The revision with a generation and a suffix. -/
def ofGeneration (generation : Nat) (suffix : String) : String :=
  String.ofList (Text.ofNat generation) ++ "-" ++ suffix

/-- The two hexadecimal digits of a byte. -/
def byteText (byte : Nat) : List Char :=
  [Nat.digitChar (byte / 16), Nat.digitChar (byte % 16)]

/-- A suffix of thirty-two hexadecimal digits from sixteen random bytes, marked as a random
identifier of version 4. -/
def randomSuffix (bytes : List Nat) : String :=
  let marked := bytes.mapIdx fun i byte =>
    if i = 6 then 0x40 + byte % 0x10 else if i = 8 then 0x80 + byte % 0x40 else byte
  String.ofList (marked.flatMap byteText)

/-- The revision of the next write. -/
def next (previous : Option String) (suffix : String) : String :=
  ofGeneration ((generation previous + 1) % Range.unsigned64) suffix

end DocIndex.Revision
