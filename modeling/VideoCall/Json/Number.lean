import VideoCall.Number.Shortest

/-!
# Numbers of JSON

A number is a whole number in the range of 64-bit integers, signed or unsigned, or a double. A
numeral without a fraction and an exponent that lies in the range is a whole number, save for minus
zero, which is the double `-0.0`. Every other numeral is read as a double.

## Main definitions

* `Json.Number` : a whole number or a double.
* `Json.Numeral` : the parts of a number as it is written.
* `Json.Numeral.number?` : the number that a numeral is read as; there is none beyond the largest
  double.
* `Json.Number.text` : the characters of a number.
-/

namespace VideoCall.Json

/-- A whole number or a double. -/
inductive Number
  | whole (n : Int)
  | double (d : Double)
  deriving DecidableEq

namespace Number

/-- Whether a whole number has a place in 64 bits, signed or unsigned. -/
def Fits : Number → Prop
  | whole n => -(Nat.pow 2 63) ≤ n ∧ n < Nat.pow 2 64
  | double _ => True

/-- The digits of a whole number, behind a minus sign if it is negative. -/
def wholeText (n : Int) : List Char :=
  if n < 0 then '-' :: Nat.toDigits 10 n.natAbs else Nat.toDigits 10 n.natAbs

/-- The characters of a number. -/
def text : Number → List Char
  | whole n => wholeText n
  | double d => d.text

end Number

/-- A number as it is written. -/
structure Numeral where
  negative : Bool
  /-- The digits before the point. -/
  whole : List Nat
  /-- The digits after the point, if there is a point. -/
  fraction : Option (List Nat)
  /-- The exponent's minus sign and digits, if there is an exponent. -/
  exponent : Option (Bool × List Nat)
  deriving DecidableEq

namespace Numeral

/-- The least number above the range of a significand. -/
def significandBound : Nat := Nat.pow 2 64

/-- The least number above the range of an exponent's digits. -/
def exponentBound : Nat := Nat.pow 2 31

/-- Digits joined to a significand as long as the result is in range. The digits that are left over
come back beside it. -/
def gather (significand : Nat) : List Nat → Nat × List Nat
  | [] => (significand, [])
  | d :: r =>
    let n := 10 * significand + d
    if n < significandBound then gather n r else (significand, d :: r)

/-- The number a list of digits stands for. -/
def digitsValue (ds : List Nat) : Nat := ds.foldl (fun n d => 10 * n + d) 0

/-- The significand and the power of ten of the digits around the point. Digits before the point
that do not fit raise the power; digits after it that do not fit are dropped. -/
def significand (n : Numeral) : Nat × Int :=
  let (s, left) := gather 0 n.whole
  let ds := n.fraction.getD []
  let (s, dropped) := gather s ds
  (s, (left.length : Int) - ((ds.length - dropped.length : Nat) : Int))

/-- The double with the sign of the numeral. -/
def signed (n : Numeral) (d : Double) : Double := { d with negative := n.negative }

/-- The double a numeral is read as. An exponent out of range means zero when it is negative or when
the significand is zero, and no number otherwise. -/
def double? (n : Numeral) : Option Double := do
  let (s, power) := n.significand
  match n.exponent with
  | none => return n.signed (← Double.ofDigits s power)
  | some (down, ds) =>
    if digitsValue ds < exponentBound then
      let e : Int := digitsValue ds
      return n.signed (← Double.ofDigits s (if down then power - e else power + e))
    else if s = 0 || down then some (Double.zero n.negative)
    else none

/-- The number a numeral is read as. -/
def number? (n : Numeral) : Option Number :=
  match n.fraction, n.exponent with
  | none, none =>
    let (s, left) := gather 0 n.whole
    if !left.isEmpty then n.double?.map .double
    else if !n.negative then some (.whole s)
    else if s = 0 || Nat.pow 2 63 < s then n.double?.map .double
    else some (.whole (-s))
  | _, _ => n.double?.map .double

end Numeral

end VideoCall.Json
