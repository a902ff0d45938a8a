import HeaderBinding.Json.Basic
import HeaderBinding.Text.Digit

/-!
# Reading JSON Text

A strict reader: one value, blanks around it and nothing else; no comments, no trailing comma, no
byte order mark, no raw control character in a string.

Each function takes the text still to be read and gives back what it read together with what is
left. Recursion runs on a count of steps that `Json.read?` takes from the length of the text; every
step consumes a character, so the count never runs out on a text the grammar admits.

## Main definitions

* `Reader.readString`: A string behind its opening quotation mark.
* `Reader.readNumber`: A number.
* `Reader.readValue`: Any value.
* `Json.read?`: A whole text.
-/

namespace HeaderBinding

namespace Json

namespace Reader

open Text

/-- Drop blanks; JSON knows four. -/
def skipBlanks (cs : List Char) : List Char :=
  cs.dropWhile fun c => c == ' ' || c == '\n' || c == '\t' || c == '\r'

/-- The value of four hexadecimal digits. -/
def hex4? (a b c d : Char) : Option Nat :=
  if [a, b, c, d].all isHexDigit then some (valueOf 16 [a, b, c, d]) else none

/-- The character a one-letter escape stands for. -/
def shortEscape? : Char → Option Char
  | '"' => some '"'
  | '\\' => some '\\'
  | '/' => some '/'
  | 'b' => some '\x08'
  | 'f' => some '\x0c'
  | 'n' => some '\n'
  | 'r' => some '\r'
  | 't' => some '\t'
  | _ => none

/-- A piece of a string: a character, or the sixteen bits of a numeric escape. -/
inductive Piece where
  | char (c : Char)
  | unit (n : Nat)

/-- The pieces of a string up to its closing quotation mark, and the text behind it. -/
def readPieces : List Char → Option (List Piece × List Char)
  | [] => none
  | '"' :: cs => some ([], cs)
  | '\\' :: 'u' :: a :: b :: c :: d :: cs => do
    let n ← hex4? a b c d
    let (pieces, rest) ← readPieces cs
    return (.unit n :: pieces, rest)
  | '\\' :: e :: cs => do
    let c ← shortEscape? e
    let (pieces, rest) ← readPieces cs
    return (.char c :: pieces, rest)
  | c :: cs => do
    if c.toNat < 0x20 || c == '\\' then none
    let (pieces, rest) ← readPieces cs
    return (.char c :: pieces, rest)

/-- The first half of a surrogate pair. -/
def isHighHalf (n : Nat) : Bool := 0xD800 ≤ n && n ≤ 0xDBFF

/-- The second half of a surrogate pair. -/
def isLowHalf (n : Nat) : Bool := 0xDC00 ≤ n && n ≤ 0xDFFF

/-- The characters the pieces stand for. Two halves that belong together make one character; a half
    on its own makes none, and the string is no text. -/
def joinPieces : List Piece → Option (List Char)
  | [] => some []
  | .char c :: pieces => (joinPieces pieces).map (c :: ·)
  | .unit n :: .unit m :: pieces =>
    if isHighHalf n && isLowHalf m then
      (joinPieces pieces).map
        (Char.ofNat (0x10000 + (n - 0xD800) * 0x400 + (m - 0xDC00)) :: ·)
    else if isHighHalf n || isLowHalf n then none
    else (joinPieces (.unit m :: pieces)).map (Char.ofNat n :: ·)
  | .unit n :: pieces =>
    if isHighHalf n || isLowHalf n then none
    else (joinPieces pieces).map (Char.ofNat n :: ·)

/-- A string behind its opening quotation mark: its text, if it is one, and what follows. -/
def readString (cs : List Char) : Option (Option String × List Char) := do
  let (pieces, rest) ← readPieces cs
  return ((joinPieces pieces).map String.ofList, rest)

/-- The whole part of a number: a zero alone, or digits that do not start with one. -/
def readWhole : List Char → Option (List Char × List Char)
  | '0' :: cs => some (['0'], cs)
  | cs =>
    let digits := cs.takeWhile isDigit
    if digits.isEmpty then none else some (digits, cs.dropWhile isDigit)

/-- The digits behind a decimal point, if there is one. -/
def readFraction : List Char → Option (Option (List Char) × List Char)
  | '.' :: cs =>
    let digits := cs.takeWhile isDigit
    if digits.isEmpty then none else some (some digits, cs.dropWhile isDigit)
  | cs => some (none, cs)

/-- The digits of an exponent behind its sign. -/
def readExponentDigits (negative : Bool) (cs : List Char) : Option (Option Int × List Char) :=
  let digits := cs.takeWhile isDigit
  let value : Int := valueOf 10 digits
  if digits.isEmpty then none
  else some (some (if negative then -value else value), cs.dropWhile isDigit)

/-- An exponent, if there is one. -/
def readExponent : List Char → Option (Option Int × List Char)
  | e :: cs =>
    if e == 'e' || e == 'E' then
      match cs with
      | '+' :: cs => readExponentDigits false cs
      | '-' :: cs => readExponentDigits true cs
      | cs => readExponentDigits false cs
    else some (none, e :: cs)
  | [] => some (none, [])

/-- A number without its sign. -/
def readUnsigned (negative : Bool) (cs : List Char) : Option (Json × List Char) := do
  let (whole, cs) ← readWhole cs
  let (fraction, cs) ← readFraction cs
  let (exponent, cs) ← readExponent cs
  let digits := valueOf 10 (whole ++ fraction.getD [])
  let value : Int := if negative then -digits else digits
  if fraction.isNone && exponent.isNone && !(negative && digits == 0) then
    return (.int value, cs)
  return (.real value (exponent.getD 0 - (fraction.getD []).length), cs)

/-- A number. -/
def readNumber : List Char → Option (Json × List Char)
  | '-' :: cs => readUnsigned true cs
  | cs => readUnsigned false cs

/-- A word of the format, if the text starts with it. -/
def readWord (word : String) (value : Json) (cs : List Char) : Option (Json × List Char) :=
  (word.toList.isPrefixOf? cs).map fun rest => (value, rest)

/-- A container that may be `room` levels deep: without room it stands for no value. -/
def container (room : Nat) (value : Json) : Json :=
  if room = 0 then .unusable else value

mutual

/-- A value. `room` is the number of container levels that may still be opened. -/
def readValue : Nat → Nat → List Char → Option (Json × List Char)
  | 0, _, _ => none
  | steps + 1, room, cs =>
    match skipBlanks cs with
    | '{' :: cs =>
      match skipBlanks cs with
      | '}' :: cs => some (container room (.obj []), cs)
      | cs => do
        let (members, cs) ← readMembers steps (room - 1) cs
        return (members.elim .unusable fun members => container room (.obj members), cs)
    | '[' :: cs =>
      match skipBlanks cs with
      | ']' :: cs => some (container room (.arr []), cs)
      | cs => do
        let (items, cs) ← readItems steps (room - 1) cs
        return (container room (.arr items), cs)
    | '"' :: cs => do
      let (text, cs) ← readString cs
      return (text.elim .unusable .str, cs)
    | 't' :: cs => readWord "true" (.bool true) ('t' :: cs)
    | 'f' :: cs => readWord "false" (.bool false) ('f' :: cs)
    | 'n' :: cs => readWord "null" .null ('n' :: cs)
    | cs => readNumber cs

/-- The items of an array up to its closing bracket, at least one. -/
def readItems : Nat → Nat → List Char → Option (List Json × List Char)
  | 0, _, _ => none
  | steps + 1, room, cs => do
    let (item, cs) ← readValue steps room cs
    match skipBlanks cs with
    | ']' :: cs => return ([item], cs)
    | ',' :: cs =>
      let (items, cs) ← readItems steps room cs
      return (item :: items, cs)
    | _ => none

/-- The members of an object up to its closing brace, at least one. A key that is no text leaves no
    members to speak of. -/
def readMembers : Nat → Nat → List Char → Option (Option (List (String × Json)) × List Char)
  | 0, _, _ => none
  | steps + 1, room, cs =>
    match skipBlanks cs with
    | '"' :: cs => do
      let (key, cs) ← readString cs
      let ':' :: cs := skipBlanks cs | none
      let (value, cs) ← readValue steps room cs
      match skipBlanks cs with
      | '}' :: cs => return (key.map fun key => [(key, value)], cs)
      | ',' :: cs =>
        let (members, cs) ← readMembers steps room cs
        return (do return (← key, value) :: (← members), cs)
      | _ => none
    | _ => none

end

end Reader

/-- Read a whole text. Containers nested more than `depthLimit` levels are syntax only: they are
    checked and stand for no value. -/
def read? (depthLimit : Nat) (text : String) : Option Json :=
  let cs := text.toList
  match Reader.readValue (2 * cs.length + 2) depthLimit cs with
  | some (value, rest) => if (Reader.skipBlanks rest).isEmpty then some value else none
  | none => none

end Json

end HeaderBinding
