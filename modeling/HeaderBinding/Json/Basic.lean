/-!
# JSON Values

The values of the JSON format, with objects as lists of members in their written order. A repeated
key is kept, because whether it is an error depends on who reads the object: a record refuses a
second value for one of its fields, while a map takes the last one.

A text can be right by the grammar and still hold a value nobody can use: a string with half of a
surrogate pair, or containers nested deeper than the reader's limit. Such a value matters only if
somebody asks for it, so the reader does not fail on it. It leaves the mark `Json.unusable`, which
no field accepts and which a field that is skipped never sees.

## Main definitions

* `Json`: The values.
* `Json.usable`: A value without unusable parts, whose numbers are within the range of a double.
-/

namespace HeaderBinding

/-- A JSON value. -/
inductive Json where
  | null
  | bool (value : Bool)
  /-- A number written without fraction and exponent, and not as negative zero. -/
  | int (value : Int)
  /-- Any other number, as `digits * 10 ^ exponent`. -/
  | real (digits exponent : Int)
  | str (value : String)
  | arr (items : List Json)
  | obj (members : List (String × Json))
  /-- A part of a text that follows the grammar and stands for no value. -/
  | unusable
deriving Inhabited, BEq

namespace Json

/-- The least magnitude that rounds to infinity among the doubles: half a unit above the greatest
    finite one. -/
def doubleLimit : Nat := Nat.pow 2 1024 - Nat.pow 2 970

/-- `digits * 10 ^ exponent` is within the range of a double. The first two cases settle extreme
    exponents from the number of digits alone, so that no huge power is computed. -/
def inDoubleRange (digits exponent : Int) : Bool :=
  let n := digits.natAbs
  let magnitude : Int := (Nat.toDigits 10 n).length + exponent
  if n = 0 ∨ magnitude < 300 then true
  else if 320 < magnitude then false
  else if 0 ≤ exponent then n * Nat.pow 10 exponent.toNat < doubleLimit
  else n < doubleLimit * Nat.pow 10 exponent.natAbs

/-- A value that can be held for later: no part of it is unusable and its numbers fit. -/
def usable : Json → Bool
  | null | bool _ | str _ => true
  | int value => inDoubleRange value 0
  | real digits exponent => inDoubleRange digits exponent
  | arr items => items.attach.all fun ⟨item, _⟩ => item.usable
  | obj members => members.attach.all fun ⟨⟨_, value⟩, _⟩ => value.usable
  | unusable => false
termination_by j => sizeOf j
decreasing_by
  · rename_i h
    have := List.sizeOf_lt_of_mem h
    simp only [arr.sizeOf_spec]
    omega
  · rename_i h
    have := List.sizeOf_lt_of_mem h
    simp only [obj.sizeOf_spec, Prod.mk.sizeOf_spec] at *
    omega

end Json

end HeaderBinding
