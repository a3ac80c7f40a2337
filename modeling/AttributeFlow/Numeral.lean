/-!
# Fixed-width numerals

Masks and keys are printed in a power-of-two base with leading zeros up to a
least width and with a mark that names the base.
-/

namespace AttributeFlow.Numeral

/-- The digits of a number in a base, with zeros in front up to a least width. -/
def padded (base width value : Nat) : List Char :=
  let digits := Nat.toDigits base value
  List.replicate (width - digits.length) '0' ++ digits

def binary (width value : Nat) : String :=
  "0b" ++ String.ofList (padded 2 width value)

def hexadecimal (width value : Nat) : String :=
  "0x" ++ String.ofList (padded 16 width value)

end AttributeFlow.Numeral
