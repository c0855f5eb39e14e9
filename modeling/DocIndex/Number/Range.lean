/-!
# Ranges of machine numbers

The limits that numbers of thirty-two and sixty-four bits put on texts and revisions. Every limit
is the first number beyond its range.
-/

namespace DocIndex.Range

/-- The limit of the signed numbers of thirty-two bits. -/
def signed32 : Nat := 2147483648

/-- The limit of the unsigned numbers of thirty-two bits. -/
def unsigned32 : Nat := 4294967296

/-- The limit of the signed numbers of sixty-four bits. -/
def signed64 : Nat := 9223372036854775808

/-- The limit of the unsigned numbers of sixty-four bits. -/
def unsigned64 : Nat := 18446744073709551616

end DocIndex.Range
