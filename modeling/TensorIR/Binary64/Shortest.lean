import TensorIR.Binary64

/-!
# The shortest decimal that reads back

Among the decimals that round to a given value, the ones with the fewest digits are the ones to
print, and of those the one nearest to the value. This file finds it for a positive value
`significand * 2 ^ exponent`, in exact integers.

The decimals that round to the value form an interval around it: half way to the neighbour on
either side, ends included when the significand is even. Below a power of two the neighbour is only
half as far. On the grid of decimals with `n` digits, if any point lies in the interval then one of
the two grid points next to the value does; so it is enough to look at those two, for one digit,
two digits, and so on. Seventeen digits always suffice.
-/

set_option autoImplicit false

namespace TensorIR.Binary64

/-- A decimal `digits * 10 ^ exponent`. -/
structure Decimal where
  digits : Nat
  exponent : Int
deriving DecidableEq, Repr

/-- The fraction `a * 2 ^ e`. -/
def dyadic (a : Nat) (e : Int) : Nat × Nat :=
  if 0 ≤ e then (a * Nat.pow 2 e.toNat, 1) else (a, Nat.pow 2 (-e).toNat)

/-- The fraction `d * 10 ^ e`. -/
def Decimal.ratio (d : Decimal) : Nat × Nat :=
  if 0 ≤ d.exponent then (d.digits * Nat.pow 10 d.exponent.toNat, 1)
  else (d.digits, Nat.pow 10 (-d.exponent).toNat)

/-- The values of the decimals that round to a value, as fractions with the ends `lo` and `hi`. -/
structure Interval where
  lo : Nat × Nat
  hi : Nat × Nat
  closed : Bool

/-- The interval of the reals that round to `significand * 2 ^ exponent`. In quarters of the unit
`2 ^ exponent` the upper end is two above the value; the lower end is two below it, or one when the
lower neighbour is half as far. -/
def Interval.around (significand : Nat) (exponent : Int) : Interval where
  lo := dyadic
    (4 * significand - if significand = Nat.pow 2 52 ∧ minExponent < exponent then 1 else 2)
    (exponent - 2)
  hi := dyadic (4 * significand + 2) (exponent - 2)
  closed := significand % 2 == 0

/-- The decimal lies in the interval. -/
def Interval.contains (i : Interval) (d : Decimal) : Bool :=
  let (n, m) := d.ratio
  let (ln, ld) := i.lo
  let (hn, hd) := i.hi
  if i.closed then ln * m ≤ n * ld && n * hd ≤ hn * m
  else ln * m < n * ld && n * hd < hn * m

/-- The number of digits before the decimal point of a positive fraction; zero or negative when
the fraction is below one and zeros follow the point. -/
def magnitude (num den : Nat) : Int :=
  let estimate : Int := (Nat.toDigits 10 num).length - (Nat.toDigits 10 den).length
  let (n, d) :=
    if 0 ≤ estimate then (num, den * Nat.pow 10 estimate.toNat)
    else (num * Nat.pow 10 (-estimate).toNat, den)
  if d ≤ n then estimate + 1 else estimate

/-- The same decimal with one digit fewer, when its last digit is zero. -/
def Decimal.trimmed (d : Decimal) : Decimal :=
  if d.digits % 10 = 0 then ⟨d.digits / 10, d.exponent + 1⟩ else d

/-- The better of the two neighbours of `num / den` on the grid of step `10 ^ step`, if one of them
lies in the interval. When both do, the nearer wins, and the upper one at equal distance. -/
def Interval.nearest? (i : Interval) (num den : Nat) (step : Int) : Option Decimal :=
  let (n, d) :=
    if 0 ≤ step then (num, den * Nat.pow 10 step.toNat)
    else (num * Nat.pow 10 (-step).toNat, den)
  let below : Decimal := ⟨n / d, step⟩
  let above : Decimal := ⟨n / d + 1, step⟩
  match i.contains below, i.contains above with
  | true, true => some (if d ≤ 2 * (n % d) then above else below)
  | true, false => some below
  | false, true => some above
  | false, false => none

/-- The shortest decimal that rounds to the positive value `significand * 2 ^ exponent`, and the
nearest to it of those. Just below a power of ten the upper neighbour is that power, which has a
digit to trim. -/
def shortest (significand : Nat) (exponent : Int) : Decimal :=
  let interval := Interval.around significand exponent
  let (num, den) := dyadic significand exponent
  let top := magnitude num den
  let candidates := (List.range 17).filterMap fun n =>
    interval.nearest? num den (top - (n + 1 : Nat))
  (candidates.headD ⟨num, 0⟩).trimmed

end TensorIR.Binary64
