/-!
# Doubles

Floating-point numbers of 64 bits as exact values: a sign and `mantissa * 2 ^ exponent`, an
infinity, or no number. Decimals are read by rounding to the nearest double, of two equally near
ones to the one with the even mantissa. All arithmetic is on natural numbers.

## Main definitions

* `Binary64`: The values.
* `Fraction`: A positive rational number by numerator and denominator.
* `Binary64.ofDecimal`: The double nearest to a decimal.
-/

namespace HeaderBinding

/-- A rational number `numerator / denominator`, not necessarily in lowest terms. -/
structure Fraction where
  numerator : Nat
  denominator : Nat
deriving DecidableEq, Inhabited, Repr

/-- A floating-point number of 64 bits. -/
inductive Binary64 where
  /-- The number `mantissa * 2 ^ exponent` with its sign. Zero has both signs. -/
  | finite (negative : Bool) (mantissa : Nat) (exponent : Int)
  | infinite (negative : Bool)
  | nan
deriving DecidableEq, Inhabited, Repr

namespace Fraction

/-- The number `n * base ^ exponent`. -/
def scaled (n base : Nat) (exponent : Int) : Fraction :=
  if 0 ≤ exponent then ⟨n * Nat.pow base exponent.toNat, 1⟩ else ⟨n, Nat.pow base exponent.natAbs⟩

/-- Multiply by `base ^ exponent`. -/
def scale (f : Fraction) (base : Nat) (exponent : Int) : Fraction :=
  let g := scaled f.numerator base exponent
  ⟨g.numerator, f.denominator * g.denominator⟩

/-- One number is at most another. -/
def le (f g : Fraction) : Bool :=
  f.numerator * g.denominator ≤ g.numerator * f.denominator

/-- One number is less than another. -/
def lt (f g : Fraction) : Bool :=
  f.numerator * g.denominator < g.numerator * f.denominator

/-- The greatest whole number that is not greater. -/
def floor (f : Fraction) : Nat :=
  f.numerator / f.denominator

/-- The nearest whole number, of two the even one. -/
def roundEven (f : Fraction) : Nat :=
  let down := f.floor
  let rest := 2 * (f.numerator % f.denominator)
  if rest < f.denominator ∨ (rest = f.denominator ∧ down % 2 = 0) then down else down + 1

/-- The number of digits of a whole number in a base. -/
def digitCount (base n : Nat) : Nat :=
  (Nat.toDigits base n).length

/-- The exponent of the greatest power of `base` that a positive number reaches. The lengths of
    numerator and denominator leave two candidates. -/
def log (base : Nat) (f : Fraction) : Int :=
  let guess : Int := digitCount base f.numerator - digitCount base f.denominator
  if (scaled 1 base guess).le f then guess else guess - 1

end Fraction

namespace Binary64

/-- The number of bits of a mantissa. -/
def precision : Nat := 53

/-- The exponent of the smallest positive double. -/
def minExponent : Int := -1074

/-- The greatest exponent of a double with a full mantissa. -/
def maxExponent : Int := 971

/-- The double nearest to a positive number. -/
def ofFraction (negative : Bool) (f : Fraction) : Binary64 :=
  let exponent := max (f.log 2 - (precision - 1 : Nat)) minExponent
  let mantissa := (f.scale 2 (-exponent)).roundEven
  -- Rounding up can make the mantissa one bit longer.
  let (mantissa, exponent) :=
    if mantissa = Nat.pow 2 precision then (Nat.pow 2 (precision - 1), exponent + 1)
    else (mantissa, exponent)
  if maxExponent < exponent then infinite negative else finite negative mantissa exponent

/-- The double nearest to `digits * 10 ^ exponent`. The number of digits settles extreme exponents,
    so that no huge power is computed. -/
def ofDecimal (negative : Bool) (digits : Nat) (exponent : Int) : Binary64 :=
  let magnitude : Int := Fraction.digitCount 10 digits + exponent
  if digits = 0 ∨ magnitude < -330 then finite negative 0 minExponent
  else if 320 < magnitude then infinite negative
  else ofFraction negative (Fraction.scaled digits 10 exponent)

end Binary64

end HeaderBinding
