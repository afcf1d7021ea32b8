/-!
# Bytes in hexadecimal digits

A byte is written as two digits of the sixteen from `0` to `f`, the higher one first.

## Main definitions

* `Text.hex` : the digits of a list of bytes.
* `Text.unhex?` : the bytes of a list of digits.
-/

namespace VideoCall.Text

/-- The digits, in the order of their values. -/
def hexDigits : List Char :=
  ['0', '1', '2', '3', '4', '5', '6', '7', '8', '9', 'a', 'b', 'c', 'd', 'e', 'f']

/-- The digits of a list of bytes. -/
def hex (bytes : List UInt8) : String :=
  String.ofList (bytes.flatMap fun b =>
    [hexDigits.getD (b.toNat / 16) '0', hexDigits.getD (b.toNat % 16) '0'])

/-- The bytes of a list of digits, of which there has to be an even number. -/
def unhex? : List Char → Option (List UInt8)
  | [] => some []
  | [_] => none
  | a :: b :: r => do
    let x ← hexDigits.idxOf? a
    let y ← hexDigits.idxOf? b
    let bytes ← unhex? r
    return UInt8.ofNat (x * 16 + y) :: bytes

end VideoCall.Text
