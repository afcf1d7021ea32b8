import VideoCall.Number.Double

/-!
# The shortest decimal that reads back

The text of a double is its shortest decimal: the fewest digits of which the nearest double is the
given one, and of those the decimal nearest to it. The search goes through grids `10 ^ k` with one,
two, … up to seventeen digits. On each grid only the two neighbours of the number can be nearest,
and the first grid with a neighbour inside the rounding interval wins.

## Main definitions

* `Double.shortest` : the digits and the power of ten of the shortest decimal.
* `Double.text` : the decimal in positional form where the point falls near the digits, and with an
  exponent elsewhere.
-/

namespace VideoCall.Double

/-- The bounds of the reals that round to the magnitude `m * 2 ^ e`, in units of `2 ^ (e - 2)`. Just
above a power of two the lower neighbour is nearer. -/
def interval (d : Double) : Nat × Nat :=
  let m := d.mantissa
  let low := if m = Nat.pow 2 52 && leastExponent < d.exponent then 4 * m - 1 else 4 * m - 2
  (low, 4 * m + 2)

/-- Whether `digits * 10 ^ k` rounds to the magnitude of `d`. The ends of the interval belong to it
if and only if the mantissa is even. -/
def roundsTo (d : Double) (digits : Nat) (k : Int) : Bool :=
  let (num, den) :=
    if 0 ≤ k then (digits * Nat.pow 10 k.toNat, 1) else (digits, Nat.pow 10 (-k).toNat)
  let (n, m) := scaled num den (d.exponent - 2)
  let (low, high) := d.interval
  if d.mantissa % 2 = 0 then low * m ≤ n && n ≤ high * m else low * m < n && n < high * m

/-- The number of digits before the point of `num / den`; zero or less if zeros follow the point. -/
def decimalMagnitude (num den : Nat) : Int :=
  let rec up (fuel : Nat) (k : Nat) : Nat :=
    match fuel with
    | 0 => k
    | fuel + 1 => if num < den * Nat.pow 10 k then k else up fuel (k + 1)
  let rec down (fuel : Nat) (k : Nat) : Nat :=
    match fuel with
    | 0 => k
    | fuel + 1 => if num * Nat.pow 10 (k + 1) < den then down fuel (k + 1) else k
  if den ≤ num then up 310 1 else -(down 330 0 : Nat)

/-- The neighbour of `d` on the grid of `n` digits that rounds to `d`, if there is one. -/
def onGrid (d : Double) (n : Nat) : Option (Nat × Int) :=
  let (num, den) := d.quotient
  let k := decimalMagnitude num den - n
  let (a, b) :=
    if 0 ≤ k then (num, den * Nat.pow 10 k.toNat) else (num * Nat.pow 10 (-k).toNat, den)
  let below := a / b
  let nearer := roundEven a b
  let other := if nearer = below then below + 1 else below
  if d.roundsTo nearer k then some (nearer, k)
  else if d.roundsTo other k then some (other, k)
  else none

/-- Trailing zeros moved into the power of ten. -/
def trimmed (digits : Nat) (k : Int) : Nat × Int :=
  if h : 0 < digits ∧ digits % 10 = 0 then trimmed (digits / 10) (k + 1) else (digits, k)
termination_by digits
decreasing_by omega

/-- The shortest decimal `digits * 10 ^ k` that reads back as the magnitude of a number that is not
zero. -/
def shortest (d : Double) : Nat × Int :=
  let (digits, k) := ((List.range' 1 17).findSome? d.onGrid).getD (d.mantissa, d.exponent)
  trimmed digits k

/-- Digits and a power of ten as a text. With up to sixteen digits before the point, or up to four
zeros behind it, the number is written out; otherwise it has one digit before the point and an
exponent, which always has a sign. -/
def layOut (digits : Nat) (k : Int) : List Char :=
  let ds := Nat.toDigits 10 digits
  let point : Int := ds.length + k
  if 0 ≤ k && point ≤ 16 then ds ++ List.replicate k.toNat '0' ++ ['.', '0']
  else if 0 < point && point ≤ 16 then ds.take point.toNat ++ '.' :: ds.drop point.toNat
  else if -5 < point && point ≤ 0 then '0' :: '.' :: List.replicate (-point).toNat '0' ++ ds
  else
    let mark := 'e' :: (if point - 1 < 0 then '-' else '+') :: Nat.toDigits 10 (point - 1).natAbs
    match ds with
    | [d] => d :: mark
    | d :: rest => d :: '.' :: rest ++ mark
    | [] => mark

/-- The text of a double. -/
def text (d : Double) : List Char :=
  let sign := if d.negative then ['-'] else []
  if d.isZero then sign ++ ['0', '.', '0']
  else
    let (digits, k) := d.shortest
    sign ++ layOut digits k

end VideoCall.Double
