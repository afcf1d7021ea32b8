/-!
# Blank characters

The blank characters are those with the Unicode property White_Space. A text is trimmed by dropping
the blank characters at both of its ends.

## Main definitions

* `Text.isBlank` : the property of a character.
* `Text.trim` : a text without blank characters at its ends.
-/

namespace VideoCall.Text

/-- The characters with the property White_Space. -/
def isBlank (c : Char) : Bool :=
  (0x09 ≤ c.toNat && c.toNat ≤ 0x0D) || c.toNat = 0x20 || c.toNat = 0x85 || c.toNat = 0xA0
    || c.toNat = 0x1680 || (0x2000 ≤ c.toNat && c.toNat ≤ 0x200A) || c.toNat = 0x2028
    || c.toNat = 0x2029 || c.toNat = 0x202F || c.toNat = 0x205F || c.toNat = 0x3000

/-- The characters between the blank ones at the two ends. -/
def trimChars (cs : List Char) : List Char :=
  ((cs.dropWhile isBlank).reverse.dropWhile isBlank).reverse

/-- The text without the blank characters at its ends. -/
def trim (s : String) : String := String.ofList (trimChars s.toList)

/-- Whether there is no character but blank ones. -/
def isAllBlank (s : String) : Bool := s.toList.all isBlank

end VideoCall.Text
