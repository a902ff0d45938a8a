import HeaderBinding.Text.Digit
import HeaderBinding.Toml.Basic

/-!
# Numbers, Dates and Times in TOML

A number starts with a digit or a sign. Digits may be joined by single underscores. A whole number
in the decimal system has no leading zero; with a mark in front it is written in base two, eight or
sixteen. A point or an exponent makes a float, and so do the words for infinity and for no number.

A date is checked against the calendar. Dates and times are kept in one spelling: a `T` between date
and time, at most nine decimals of a second without zeros at the end, and an offset in hours and
minutes.

## Main definitions

* `Reader.readNumber`: A whole number or a float.
* `Reader.readMoment`: A date, a time, or both.
-/

namespace HeaderBinding

namespace Toml

namespace Reader

open Text

/-- The digits in front of a text, without the underscores that join them, and what follows. -/
def takeDigits (isDigit : Char → Bool) : List Char → List Char × List Char
  | [] => ([], [])
  | '_' :: c :: cs =>
    if isDigit c then
      let (digits, rest) := takeDigits isDigit cs
      (c :: digits, rest)
    else ([], '_' :: c :: cs)
  | c :: cs =>
    if isDigit c then
      let (digits, rest) := takeDigits isDigit cs
      (c :: digits, rest)
    else ([], c :: cs)

/-- Digits that start with a digit. -/
def readDigits (isDigit : Char → Bool) : List Char → Option (List Char × List Char)
  | [] => none
  | c :: cs => if isDigit c then some (takeDigits isDigit (c :: cs)) else none

/-- The digits of a whole number: a zero alone, or digits that do not start with one. -/
def readWhole : List Char → Option (List Char × List Char)
  | '0' :: cs => some (['0'], cs)
  | cs => readDigits isDigit cs

/-- The digits behind a point, if there is one. -/
def readFraction : List Char → Option (Option (List Char) × List Char)
  | '.' :: cs => do
    let (digits, cs) ← readDigits isDigit cs
    return (some digits, cs)
  | cs => some (none, cs)

/-- A sign, if there is one: whether it is a minus, and what follows. -/
def takeSign : List Char → Option Bool × List Char
  | '+' :: cs => (some false, cs)
  | '-' :: cs => (some true, cs)
  | cs => (none, cs)

/-- The exponent of a float, if there is one, with digits read by `read`. -/
def readExponentBy (read : List Char → Option (List Char × List Char)) :
    List Char → Option (Option Int × List Char)
  | [] => some (none, [])
  | e :: cs =>
    if e == 'e' || e == 'E' then do
      let (negative, cs) := takeSign cs
      let (digits, cs) ← read cs
      let value : Int := valueOf 10 digits
      return (some (if negative.getD false then -value else value), cs)
    else some (none, e :: cs)

/-- The exponent of a float, if there is one. -/
def readExponent : List Char → Option (Option Int × List Char) :=
  readExponentBy (readDigits isDigit)

/-- The weight of the sign bit among 64 bits. -/
def signBit : Nat := 9223372036854775808

/-- The whole numbers have 64 bits with a sign. -/
def int64? (value : Int) : Option Toml :=
  if value < 0 ∧ value.natAbs ≤ signBit ∨ 0 ≤ value ∧ value.natAbs < signBit then
    some (.int value)
  else none

/-- A whole number in another base, behind its mark. -/
def readBased (base : Nat) (cs : List Char) : Option (Toml × List Char) := do
  let (digits, cs) ← readDigits (isDigitOf base) cs
  return (← int64? (valueOf base digits), cs)

/-- A number of the decimal system behind its sign. Digits that write too great a float are refused
    unless the float is negative. -/
def readDecimal (negative : Bool) (cs : List Char) : Option (Toml × List Char) := do
  let (whole, cs) ← readWhole cs
  let (fraction, cs) ← readFraction cs
  let (exponent, cs) ← readExponent cs
  let digits := valueOf 10 (whole ++ fraction.getD [])
  if fraction.isNone && exponent.isNone then
    return (← int64? (if negative then -digits else digits), cs)
  let value := Binary64.ofDecimal negative digits (exponent.getD 0 - (fraction.getD []).length)
  if value == .infinite false then none
  return (.float value, cs)

/-- A number. -/
def readNumber (cs : List Char) : Option (Toml × List Char) :=
  match takeSign cs with
  | (none, '0' :: 'x' :: cs) => readBased 16 cs
  | (none, '0' :: 'o' :: cs) => readBased 8 cs
  | (none, '0' :: 'b' :: cs) => readBased 2 cs
  | (sign, 'i' :: 'n' :: 'f' :: cs) => some (.float (.infinite (sign.getD false)), cs)
  | (_, 'n' :: 'a' :: 'n' :: cs) => some (.float .nan, cs)
  | (sign, cs) => readDecimal (sign.getD false) cs

/-- Exactly `count` digits that write a number from `low` to `high`. -/
def readField (count low high : Nat) (cs : List Char) : Option (List Char × List Char) :=
  let digits := cs.take count
  let value := valueOf 10 digits
  if digits.length = count ∧ digits.all isDigit ∧ low ≤ value ∧ value ≤ high then
    some (digits, cs.drop count)
  else none

/-- The number of days of a month. -/
def daysIn (year month : Nat) : Nat :=
  if month = 2 then
    if (year % 4 = 0 ∧ year % 100 ≠ 0) ∨ year % 400 = 0 then 29 else 28
  else if [4, 6, 9, 11].contains month then 30
  else 31

/-- A date. -/
def readDate (cs : List Char) : Option (List Char × List Char) := do
  let (year, cs) ← readField 4 0 9999 cs
  let '-' :: cs := cs | none
  let (month, cs) ← readField 2 1 12 cs
  let '-' :: cs := cs | none
  let (day, cs) ← readField 2 1 (daysIn (valueOf 10 year) (valueOf 10 month)) cs
  return (year ++ ['-'] ++ month ++ ['-'] ++ day, cs)

/-- The decimals of a second, if there are any: nine of them, without zeros at the end. -/
def takeDecimals (cs : List Char) : List Char × List Char :=
  match cs with
  | '.' :: rest =>
    let digits := rest.takeWhile isDigit
    let kept := ((digits.take 9).reverse.dropWhile (· == '0')).reverse
    if digits.isEmpty then ([], cs)
    else (if kept.isEmpty then [] else '.' :: kept, rest.dropWhile isDigit)
  | _ => ([], cs)

/-- A time of day. A minute may have a leap second. -/
def readTime (cs : List Char) : Option (List Char × List Char) := do
  let (hour, cs) ← readField 2 0 23 cs
  let ':' :: cs := cs | none
  let (minute, cs) ← readField 2 0 59 cs
  let ':' :: cs := cs | none
  let (second, cs) ← readField 2 0 60 cs
  let (decimals, cs) := takeDecimals cs
  return (hour ++ [':'] ++ minute ++ [':'] ++ second ++ decimals, cs)

/-- An offset from the common time, if there is one. No difference has no sign of its own. -/
def readOffset : List Char → Option (List Char × List Char)
  | [] => some ([], [])
  | c :: cs =>
    if c == 'Z' || c == 'z' then some (['Z'], cs)
    else if c == '+' || c == '-' then do
      let (hour, cs) ← readField 2 0 23 cs
      let ':' :: cs := cs | none
      let (minute, cs) ← readField 2 0 59 cs
      let sign := if valueOf 10 (hour ++ minute) = 0 then '+' else c
      return (sign :: hour ++ [':'] ++ minute, cs)
    else some ([], c :: cs)

/-- A date with the time behind it, if there is one. -/
def readDateTime (cs : List Char) : Option (List Char × List Char) := do
  let (date, cs) ← readDate cs
  match cs with
  | delimiter :: rest =>
    if delimiter == 'T' || delimiter == 't' || delimiter == ' ' then
      match readTime rest with
      | none => return (date, cs)
      | some (time, rest) =>
        let (offset, rest) ← readOffset rest
        return (date ++ ['T'] ++ time ++ offset, rest)
    else return (date, cs)
  | [] => return (date, [])

/-- A date, a time, or both. -/
def readMoment (cs : List Char) : Option (Toml × List Char) := do
  let (text, cs) ← readDateTime cs <|> readTime cs
  return (.moment (String.ofList text), cs)

end Reader

end Toml

end HeaderBinding
