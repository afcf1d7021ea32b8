/-!
# Base 64

Three bytes are written as four characters of six bits each. A last group of one or two bytes is
filled up with zero bits and marked by the sign `=` in the places that no byte reaches.

## Main definitions

* `Text.base64` : the characters of a list of bytes.
-/

namespace VideoCall.Text

/-- The character that stands for six bits. -/
def base64Digit (n : Nat) : Char :=
  let c := n % 64
  if c < 26 then Char.ofNat ('A'.toNat + c)
  else if c < 52 then Char.ofNat ('a'.toNat + (c - 26))
  else if c < 62 then Char.ofNat ('0'.toNat + (c - 52))
  else if c = 62 then '+' else '/'

/-- The characters of a list of bytes, three bytes at a time. -/
def base64Chars : List UInt8 → List Char
  | a :: b :: c :: r =>
    let n := a.toNat * 0x10000 + b.toNat * 0x100 + c.toNat
    base64Digit (n / 0x40000) :: base64Digit (n / 0x1000) :: base64Digit (n / 0x40) :: base64Digit n
      :: base64Chars r
  | [a, b] =>
    let n := a.toNat * 0x10000 + b.toNat * 0x100
    [base64Digit (n / 0x40000), base64Digit (n / 0x1000), base64Digit (n / 0x40), '=']
  | [a] =>
    let n := a.toNat * 0x10000
    [base64Digit (n / 0x40000), base64Digit (n / 0x1000), '=', '=']
  | [] => []

/-- The base 64 form of a text in its UTF-8 encoding. -/
def base64 (s : String) : String := String.ofList (base64Chars s.toUTF8.toList)

end VideoCall.Text
