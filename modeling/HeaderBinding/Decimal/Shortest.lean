import HeaderBinding.Decimal.Binary64

/-!
# Doubles in the Fewest Digits

The text of a double is the shortest decimal that reads back as the same double, and of several the
nearest one; of two equally near ones it is the greater. It is written without an exponent: digits,
zeros up to the point if the number is large, and behind the point only what is not zero.

For each number of digits in turn, the two multiples of a power of ten around the double are tried;
the first number of digits for which one of them rounds to the double wins. Seventeen digits always
suffice.

## Main definitions

* `Binary64.shortest`: The digits and the power of ten.
* `Binary64.text`: The text.
-/

namespace HeaderBinding

namespace Binary64

/-- The reals that round to `mantissa * 2 ^ exponent` lie between these two. The neighbour below a
    power of two is nearer than the one above. -/
def roundingInterval (mantissa : Nat) (exponent : Int) : Fraction × Fraction :=
  let below :=
    if mantissa = Nat.pow 2 (precision - 1) ∧ minExponent < exponent then 4 * mantissa - 1
    else 4 * mantissa - 2
  (Fraction.scaled below 2 (exponent - 2), Fraction.scaled (4 * mantissa + 2) 2 (exponent - 2))

/-- The decimal `digits * 10 ^ power` rounds to the positive double. The ends of the interval go to
    an even mantissa. -/
def isWithin (mantissa : Nat) (exponent : Int) (digits : Nat) (power : Int) : Bool :=
  let (low, high) := roundingInterval mantissa exponent
  let value := Fraction.scaled digits 10 power
  if mantissa % 2 = 0 then low.le value && value.le high else low.lt value && value.lt high

/-- Of the two multiples of `10 ^ power` around the double, the nearer one that rounds to it, if
    any. -/
def nearestOnGrid (mantissa : Nat) (exponent power : Int) : Option Nat :=
  let value := (Fraction.scaled mantissa 2 exponent).scale 10 (-power)
  let down := value.floor
  let up := down + 1
  let nearer := if 2 * (value.numerator % value.denominator) < value.denominator then [down, up]
    else [up, down]
  nearer.find? (isWithin mantissa exponent · power)

/-- The shortest digits of a positive double, and the power of ten behind them. -/
def shortest (mantissa : Nat) (exponent : Int) : Nat × Int :=
  let top := (Fraction.scaled mantissa 2 exponent).log 10
  let grids := (List.range 17).map fun (count : Nat) => top - (count : Int)
  (grids.findSome? fun power =>
    (nearestOnGrid mantissa exponent power).map (·, power)).getD (0, 0)

/-- The number `digits * 10 ^ power` without an exponent. -/
def positional (digits : Nat) (power : Int) : List Char :=
  let cs := Nat.toDigits 10 digits
  if 0 ≤ power then cs ++ List.replicate power.toNat '0'
  else
    let places := power.natAbs
    let cs := List.replicate (places + 1 - cs.length) '0' ++ cs
    let fraction := ((cs.drop (cs.length - places)).reverse.dropWhile (· == '0')).reverse
    cs.take (cs.length - places) ++ if fraction.isEmpty then [] else '.' :: fraction

/-- The text of a double. -/
def text : Binary64 → String
  | nan => "NaN"
  | infinite negative => if negative then "-inf" else "inf"
  | finite negative mantissa exponent =>
    let (digits, power) := if mantissa = 0 then (0, 0) else shortest mantissa exponent
    String.ofList ((if negative then ['-'] else []) ++ positional digits power)

end Binary64

end HeaderBinding
