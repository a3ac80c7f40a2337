/-!
# Owner keys

A key is a word with two bits for each owner of a dataset.  Bit `2 i` is set if
the owner at place `i` reads the current value of an attribute, and bit `2 i + 1`
if it is an update stage that writes it.  Sixteen owners fill the word.
-/

namespace AttributeFlow

/-- A word with two bits for each owner of a dataset. -/
abbrev OwnerKey := BitVec 32

namespace OwnerKey

/-- The greatest number of owners that a key can tell apart. -/
def capacity : Nat := 16

/-- The odd bits of a key, which stand for writes. -/
def writeMask : OwnerKey := 0xAAAAAAAA

def anyReads (key : OwnerKey) : Bool :=
  key &&& ~~~writeMask != 0

def anyWrites (key : OwnerKey) : Bool :=
  key &&& writeMask != 0

end OwnerKey

end AttributeFlow
