/-!
# Unsigned numerals

An unsigned numeral is a plus sign, which may be missing, and one or more decimal digits. Leading
zeros are fine; a value that needs more than 64 bits is none.

## Main definitions

* `Text.unsigned?` : the value of a numeral.
-/

namespace VideoCall.Text

/-- The least number above the range of an unsigned numeral. -/
def unsignedBound : Nat := Nat.pow 2 64

/-- The value of a digit string. -/
def digitsValue (cs : List Char) : Nat :=
  cs.foldl (fun n c => 10 * n + (c.toNat - '0'.toNat)) 0

/-- The digits behind the sign. -/
def afterPlus : List Char → List Char
  | '+' :: r => r
  | cs => cs

/-- The value of a numeral: one or more ASCII digits, and a plus sign in front or none. -/
def unsigned? (s : String) : Option Nat :=
  let ds := afterPlus s.toList
  if ds.isEmpty || !ds.all Char.isDigit then none
  else if digitsValue ds < unsignedBound then some (digitsValue ds) else none

end VideoCall.Text
