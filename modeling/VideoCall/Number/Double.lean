/-!
# Binary floating-point numbers of 64 bits

A finite double is a sign, a whole number `m` below `2 ^ 53` and an exponent `e` of two from `-1074`
on. The arithmetic here is exact arithmetic on natural numbers, followed by one rounding to the
nearest double, where a value halfway between two doubles goes to the one with even `m`.
Powers are written `Nat.pow`, so that no choice of an instance enters these definitions.

## Main definitions

* `Double` : a finite double.
* `Double.nearest` : the double nearest to a quotient of natural numbers, if that is finite.
* `Double.mul`, `Double.div` : the rounded product and quotient of magnitudes.
* `Double.ofDigits` : the double that a significand and a power of ten are read as.
-/

namespace VideoCall

/-- The number `± mantissa * 2 ^ exponent`. -/
structure Double where
  negative : Bool
  mantissa : Nat
  exponent : Int
  deriving DecidableEq

namespace Double

/-- The least exponent of a double. -/
def leastExponent : Int := -1074

/-- The greatest exponent of a double. -/
def greatestExponent : Int := 971

/-- Zero, with either sign. -/
def zero (negative : Bool) : Double := ⟨negative, 0, leastExponent⟩

/-- Whether the number is zero. -/
def isZero (d : Double) : Bool := d.mantissa == 0

/-- `num * 2 ^ (-e) / den` as a quotient of natural numbers. -/
def scaled (num den : Nat) (e : Int) : Nat × Nat :=
  if 0 ≤ e then (num, den * Nat.pow 2 e.toNat) else (num * Nat.pow 2 (-e).toNat, den)

/-- The whole number nearest to `num / den`; halfway cases go to the even neighbour. -/
def roundEven (num den : Nat) : Nat :=
  let q := num / den
  let r := num % den
  if den < 2 * r || (2 * r == den && q % 2 == 1) then q + 1 else q

/-- The exponent `k` of two with `2 ^ k ≤ num / den < 2 ^ (k + 1)`. -/
def magnitude (num den : Nat) : Int :=
  let k := (num.log2 : Int) - (den.log2 : Int)
  let (n, d) := scaled num den k
  if n < d then k - 1 else k

/-- The double nearest to `num / den`, or nothing if its magnitude is beyond the largest double. -/
def nearest (num den : Nat) : Option Double :=
  if num = 0 then some (zero false) else
    let e := max (magnitude num den - 52) leastExponent
    let (n, d) := scaled num den e
    let m := roundEven n d
    let (m, e) := if m = Nat.pow 2 53 then (Nat.pow 2 52, e + 1) else (m, e)
    if greatestExponent < e then none else some ⟨false, m, e⟩

/-- The magnitude as a quotient of natural numbers. -/
def quotient (d : Double) : Nat × Nat :=
  if 0 ≤ d.exponent then (d.mantissa * Nat.pow 2 d.exponent.toNat, 1)
  else (d.mantissa, Nat.pow 2 (-d.exponent).toNat)

/-- The product of two magnitudes, rounded. -/
def mul (a b : Double) : Option Double :=
  nearest (a.quotient.1 * b.quotient.1) (a.quotient.2 * b.quotient.2)

/-- The quotient of two magnitudes, rounded. -/
def div (a b : Double) : Option Double :=
  nearest (a.quotient.1 * b.quotient.2) (a.quotient.2 * b.quotient.1)

/-- The double nearest to a power of ten. -/
def powerOfTen (k : Nat) : Option Double := nearest (Nat.pow 10 k) 1

/-- The greatest power of ten that a double comes near. -/
def greatestPower : Nat := 308

/-- Divides by ten `k` times over, in one rounding for each started block of 308 tens. -/
def divideByTens (d : Double) (k : Nat) : Option Double :=
  if greatestPower < k then
    if d.isZero then some d else do
      let d ← d.div (← powerOfTen greatestPower)
      divideByTens d (k - greatestPower)
  else do d.div (← powerOfTen k)
termination_by k
decreasing_by simp only [greatestPower] at *; omega

/-- The magnitude read from `significand * 10 ^ power`: the significand is rounded to a double
first, then scaled by a rounded power of ten. There is none where the result is beyond the largest
double. -/
def ofDigits (significand : Nat) (power : Int) : Option Double := do
  let d ← nearest significand 1
  if power < 0 then divideByTens d (-power).toNat
  else if greatestPower < power.toNat then if d.isZero then some d else none
  else d.mul (← powerOfTen power.toNat)

end Double

end VideoCall
