import TensorIR.Binary64.Shortest
import TensorIR.Text.Numeral

/-!
# Writing and reading scalar constants

A scalar is written with the fewest digits that read back, always in positional notation: no
exponent is ever used and a whole number carries no point. Zero keeps its sign. The values that are
no numbers have the three names `NaN`, `inf` and `-inf`.

Reading accepts more: a sign, a point with digits on at least one side of it, and an exponent; and
the names of the special values in any case, also `infinity` in full.
-/

set_option autoImplicit false

namespace TensorIR.Binary64

/-! ## Writing -/

/-- A decimal in positional notation. -/
def Decimal.positional (d : Decimal) : List Char :=
  let digits := Numeral.digits d.digits
  let point : Int := digits.length + d.exponent
  if 0 ≤ d.exponent then digits ++ List.replicate d.exponent.toNat '0'
  else if 0 < point then digits.take point.toNat ++ '.' :: digits.drop point.toNat
  else '0' :: '.' :: List.replicate (-point).toNat '0' ++ digits

/-- The sign of a value, as it is written. -/
def sign (negative : Bool) : List Char := if negative then ['-'] else []

/-- The written form of a value. -/
def render : Binary64 → String
  | .nan => "NaN"
  | .infinite negative => String.ofList (sign negative ++ ['i', 'n', 'f'])
  | .finite negative significand exponent =>
    let magnitude :=
      if significand = 0 then ['0'] else (shortest significand exponent).positional
    String.ofList (sign negative ++ magnitude)

/-! ## Reading -/

/-- The exponent that follows the mantissa: nothing, or a marked and possibly signed numeral. -/
def readExponent? : List Char → Option Int
  | [] => some 0
  | marker :: rest =>
    if marker = 'e' ∨ marker = 'E' then
      match rest with
      | '-' :: ds => (Numeral.readNat? ds).map fun n => -(n : Int)
      | '+' :: ds => (Numeral.readNat? ds).map fun n => (n : Int)
      | ds => (Numeral.readNat? ds).map fun n => (n : Int)
    else none

/-- An unsigned number: digits, a point among or beside them or not at all, an exponent or none. -/
def readMagnitude? (negative : Bool) (cs : List Char) : Option Binary64 :=
  let (whole, rest) := cs.span Char.isDigit
  let (fraction, rest) := match rest with
    | '.' :: rest => rest.span Char.isDigit
    | _ => ([], rest)
  do
    let mantissa ← Numeral.readNat? (whole ++ fraction)
    let exponent ← readExponent? rest
    return ofDecimal negative mantissa (exponent - fraction.length)

/-- The special value of that name, in any case. -/
def readName? (negative : Bool) (cs : List Char) : Option Binary64 :=
  let name := String.ofList (cs.map Char.toLower)
  if name = "nan" then some .nan
  else if name = "inf" ∨ name = "infinity" then some (.infinite negative)
  else none

/-- The value that a text denotes. -/
def read? (cs : List Char) : Option Binary64 :=
  let (negative, rest) := match cs with
    | '-' :: rest => (true, rest)
    | '+' :: rest => (false, rest)
    | _ => (false, cs)
  (readName? negative rest).or (readMagnitude? negative rest)

end TensorIR.Binary64
