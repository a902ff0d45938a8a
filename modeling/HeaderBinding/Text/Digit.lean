/-!
# Digits

Digits and the numbers they write, in any base up to sixteen. Both cases of a letter are the same
digit when numbers are read; small letters are used unless capitals are asked for.

## Main definitions

* `digitValue?`: The value of a digit.
* `isDigit`, `isHexDigit`: The digits of base ten and of base sixteen.
* `valueOf`: The number a run of digits writes.
* `hexDigit`, `hexText`: Writing in base sixteen.
* `codePoint?`: The character with a number written in base sixteen.
-/

namespace HeaderBinding

namespace Text

/-- The value of a digit. -/
def digitValue? (c : Char) : Option Nat :=
  if '0' ≤ c && c ≤ '9' then some (c.toNat - 48)
  else if 'a' ≤ c && c ≤ 'f' then some (c.toNat - 87)
  else if 'A' ≤ c && c ≤ 'F' then some (c.toNat - 55)
  else none

/-- A digit of a base. -/
def isDigitOf (base : Nat) (c : Char) : Bool :=
  match digitValue? c with
  | some n => n < base
  | none => false

/-- A digit of the decimal system. -/
def isDigit (c : Char) : Bool := isDigitOf 10 c

/-- A digit of the hexadecimal system. -/
def isHexDigit (c : Char) : Bool := isDigitOf 16 c

/-- The number a run of digits writes. -/
def valueOf (base : Nat) (cs : List Char) : Nat :=
  cs.foldl (fun n c => n * base + (digitValue? c).getD 0) 0

/-- The digit of the hexadecimal system, small letters above nine. -/
def hexDigit (n : Nat) : Char :=
  if n < 10 then Char.ofNat (48 + n) else Char.ofNat (87 + n)

/-- A number in the hexadecimal system without leading zeros. -/
def hexText (n : Nat) : List Char :=
  Nat.toDigits 16 n

/-- The character whose number the digits write, if there is one. -/
def codePoint? (digits : List Char) : Option Char :=
  let n := valueOf 16 digits
  if digits.all isHexDigit ∧ n.isValidChar then some (Char.ofNat n) else none

end Text

end HeaderBinding
