/-!
# Blanks

The characters that count as white space in free text, which are those with the Unicode property
`White_Space`, and the removal of blanks at the ends of a text.
-/

namespace DocIndex.Text

/-- Whether a character has the property `White_Space`. -/
def isBlank (c : Char) : Bool :=
  let n := c.toNat
  (Nat.ble 0x9 n && Nat.ble n 0xD) || n == 0x20 || n == 0x85 || n == 0xA0 || n == 0x1680 ||
    (Nat.ble 0x2000 n && Nat.ble n 0x200A) || n == 0x2028 || n == 0x2029 || n == 0x202F ||
    n == 0x205F || n == 0x3000

/-- The text without blanks at its start. -/
def trimStart (text : List Char) : List Char := text.dropWhile isBlank

/-- The text without blanks at its end. -/
def trimEnd (text : List Char) : List Char := (text.reverse.dropWhile isBlank).reverse

/-- The text without blanks at its ends. -/
def trim (text : List Char) : List Char := trimEnd (trimStart text)

end DocIndex.Text
