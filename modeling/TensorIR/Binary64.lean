/-!
# Double-precision numbers

A scalar constant is an IEEE 754 binary64 value. The library never computes with scalars: it reads
them, keeps them and writes them. So the type here is the value itself, in exact integers, and not
a machine number: a finite value is `significand * 2 ^ exponent` with a sign, zero keeps its sign,
and reading is one correctly rounded division (`ofRatio`).

Every finite value made by this file is in canonical form: the significand has at most 53 bits,
the exponent is at least `-1074`, and either the significand has exactly 53 bits or the exponent is
`-1074`. That makes equality of values equality of the two integers.
-/

set_option autoImplicit false

namespace TensorIR

/-- An IEEE 754 binary64 value. -/
inductive Binary64 where
  /-- The result of no number. -/
  | nan
  /-- Beyond every finite value, with a sign. -/
  | infinite (negative : Bool)
  /-- `significand * 2 ^ exponent`, with a sign; zero has one too. -/
  | finite (negative : Bool) (significand : Nat) (exponent : Int)
deriving DecidableEq, Repr

namespace Binary64

/-- The smallest exponent of a finite value. -/
def minExponent : Int := -1074

/-- The largest exponent of a finite value. -/
def maxExponent : Int := 971

/-- Zero, with a sign. -/
def zero (negative : Bool) : Binary64 := .finite negative 0 minExponent

/-- The quotient rounded to the nearest integer, a half to the even neighbour. -/
def roundDiv (num den : Nat) : Nat :=
  let quotient := num / den
  let twice := 2 * (num % den)
  if twice < den then quotient
  else if den < twice then quotient + 1
  else quotient + quotient % 2

/-- `num / den` divided by `2 ^ exponent`, as a fraction again. -/
def scaled (num den : Nat) (exponent : Int) : Nat × Nat :=
  if 0 ≤ exponent then (num, den * Nat.pow 2 exponent.toNat)
  else (num * Nat.pow 2 (-exponent).toNat, den)

/-- The exponent at which a positive fraction is rounded: the one that leaves 53 bits before the
point, or the smallest exponent when that leaves fewer. -/
def exponentOf (num den : Nat) : Int :=
  let candidate := max ((num.log2 : Int) - den.log2 - 53) minExponent
  let (n, d) := scaled num den candidate
  if n / d < Nat.pow 2 53 then candidate else candidate + 1

/-- The value nearest to the fraction `num / den`, a half to the even neighbour. -/
def ofRatio (negative : Bool) (num den : Nat) : Binary64 :=
  if num = 0 then zero negative
  else
    let exponent := exponentOf num den
    let (n, d) := scaled num den exponent
    let significand := roundDiv n d
    let (significand, exponent) :=
      if significand < Nat.pow 2 53 then (significand, exponent)
      else (Nat.pow 2 52, exponent + 1)
    if maxExponent < exponent then .infinite negative
    else .finite negative significand exponent

/-- The value nearest to an integer. -/
def ofInt (n : Int) : Binary64 := ofRatio (n < 0) n.natAbs 1

/-- The value nearest to `mantissa * 10 ^ exponent`. A decimal of 310 or more digits before the
point is beyond every finite value, and one below `10 ^ (-324)` is below half of the smallest, so
the power of ten is only formed in between. -/
def ofDecimal (negative : Bool) (mantissa : Nat) (exponent : Int) : Binary64 :=
  let magnitude : Int := (Nat.toDigits 10 mantissa).length + exponent
  if mantissa = 0 then zero negative
  else if 310 ≤ magnitude then .infinite negative
  else if magnitude ≤ -324 then zero negative
  else if 0 ≤ exponent then ofRatio negative (mantissa * Nat.pow 10 exponent.toNat) 1
  else ofRatio negative mantissa (Nat.pow 10 (-exponent).toNat)

end Binary64

end TensorIR
