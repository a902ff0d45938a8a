import HeaderBinding.Settings.Decode
import HeaderBinding.Text.Blank
import HeaderBinding.Text.Small
import HeaderBinding.Toml.Number
import HeaderBinding.Toml.Text

/-!
# Settings in the Environment

A variable whose name starts with the mark of the settings holds one of them. The rest of the name,
in small letters, is the path to it, with two underscores between the names of a path. The text of
the variable is a value in a notation close to TOML, with plain words; a text that does not follow
the notation as a whole is taken as it is.

## Main definitions

* `Environment.path?`: The path a variable's name stands for.
* `Environment.readText`: The value of a variable's text.
* `Environment.layer`: The settings of all variables.
-/

namespace HeaderBinding

namespace Environment

/-- Two underscores are one point, from left to right. -/
def markLevels : List Char → List Char
  | '_' :: '_' :: cs => '.' :: markLevels cs
  | c :: cs => c :: markLevels cs
  | [] => []

/-- The path that the name of a variable stands for, if it stands for a setting. -/
def path? (name : String) : Option (List String) :=
  let mark := environmentPrefix.toList
  let cs := name.toList
  if (cs.take mark.length).map Char.toUpper = mark then
    let names := Text.splitWhere (· == '.')
      (Text.smallLetters (markLevels (cs.drop mark.length)))
    if names.any (·.isEmpty) then none else some (names.map String.ofList)
  else none

/-- A blank of the notation. -/
def isBlank (c : Char) : Bool := [' ', '\t', '\n', '\x0c', '\r'].contains c

/-- Drop blanks. -/
def skipBlanks (cs : List Char) : List Char := cs.dropWhile isBlank

/-- A character that ends a plain word. -/
def isDelimiter (c : Char) : Bool := [',', '{', '}', '[', ']'].contains c

/-- Digits, at least one, and what follows. -/
def readDigits (cs : List Char) : Option (List Char × List Char) :=
  let digits := cs.takeWhile Text.isDigit
  if digits.isEmpty then none else some (digits, cs.dropWhile Text.isDigit)

/-- A number with a point: digits on at least one side of it, and an exponent, if there is one. -/
def float? (negative : Bool) (cs : List Char) : Option Binary64 := do
  let whole := cs.takeWhile Text.isDigit
  let '.' :: cs := cs.dropWhile Text.isDigit | none
  let fraction := cs.takeWhile Text.isDigit
  if whole.isEmpty && fraction.isEmpty then none
  let digits := Text.valueOf 10 (whole ++ fraction)
  let (exponent, cs) ← Toml.Reader.readExponentBy readDigits (cs.dropWhile Text.isDigit)
  if cs.isEmpty then
    return .ofDecimal negative digits (exponent.getD 0 - fraction.length)
  none

/-- A whole number of 64 bits: without a minus it has no sign bit. -/
def whole? (negative : Bool) (cs : List Char) : Option Scalar :=
  let value := Text.valueOf 10 cs
  if cs.isEmpty || !cs.all Text.isDigit then none
  else if negative then if value ≤ Toml.Reader.signBit then some (.signed (-value)) else none
  else if value < UInt64.size then some (.unsigned value) else none

/-- The value of a plain word: a number if it is one, and else a text. -/
def ofWord (cs : List Char) : Scalar :=
  let (sign, digits) := Toml.Reader.takeSign cs
  let negative := sign.getD false
  match float? negative digits with
  | some value => .float value
  | none => (whole? negative digits).getD (.str (String.ofList cs))

/-- The name of a table's entry. -/
def readKey : List Char → Option (String × List Char)
  | '"' :: cs => do
    let (text, cs) ← Toml.Reader.readBasic cs
    return (String.ofList text, cs)
  | cs =>
    let word := cs.takeWhile Toml.Reader.isBare
    if word.isEmpty then none else some (String.ofList word, cs.dropWhile Toml.Reader.isBare)

/-- The items of a list up to its closing bracket, read by `read`. -/
def readItems (read : List Char → Option (SettingValue × List Char)) :
    Nat → List Char → Option (List SettingValue × List Char)
  | 0, _ => none
  | _, ']' :: cs => some ([], cs)
  | steps + 1, cs => do
    let (item, cs) ← read cs
    match cs with
    | ']' :: cs => return ([item], cs)
    | ',' :: cs =>
      let (items, cs) ← readItems read steps cs
      return (item :: items, cs)
    | _ => none

/-- The entries of a table up to its closing brace, with values read by `read`. -/
def readEntries (read : List Char → Option (SettingValue × List Char)) :
    Nat → List Char → Option (List (String × SettingValue) × List Char)
  | 0, _ => none
  | _, '}' :: cs => some ([], cs)
  | steps + 1, cs => do
    let (key, cs) ← readKey (skipBlanks cs)
    let '=' :: cs := skipBlanks cs | none
    let (value, cs) ← read cs
    match cs with
    | '}' :: cs => return ([(key, value)], cs)
    | ',' :: cs =>
      let (entries, cs) ← readEntries read steps cs
      return ((key, value) :: entries, cs)
    | _ => none

/-- A value behind the blanks in front of it. `room` bounds the levels that may be opened. -/
def readBare : Nat → List Char → Option (SettingValue × List Char)
  | _, 't' :: 'r' :: 'u' :: 'e' :: cs => some (.scalar .environment (.bool true), cs)
  | _, 'f' :: 'a' :: 'l' :: 's' :: 'e' :: cs => some (.scalar .environment (.bool false), cs)
  | room, '{' :: cs =>
    match room with
    | 0 => none
    | room + 1 => do
      let (entries, cs) ← readEntries (fun cs => do
        let (value, cs) ← readBare room (skipBlanks cs)
        return (value, skipBlanks cs)) (cs.length + 1) cs
      return (.table .environment (.ofList entries), cs)
  | room, '[' :: cs =>
    match room with
    | 0 => none
    | room + 1 => do
      let (items, cs) ← readItems (fun cs => do
        let (value, cs) ← readBare room (skipBlanks cs)
        return (value, skipBlanks cs)) (cs.length + 1) cs
      return (.list .environment items, cs)
  | _, '"' :: cs => do
    let (text, cs) ← Toml.Reader.readBasic cs
    return (.scalar .environment (.str (String.ofList text)), cs)
  | _, '\'' :: cs =>
    match cs with
    | c :: '\'' :: cs => some (.scalar .environment (.char c), cs)
    | _ => none
  | _, cs =>
    some (.scalar .environment (ofWord (Text.trim (cs.takeWhile (!isDelimiter ·)))),
      cs.dropWhile (!isDelimiter ·))

/-- The value of a variable's text. -/
def readText (text : String) : SettingValue :=
  let cs := text.toList
  match readBare (cs.length + 1) (skipBlanks cs) with
  | some (value, rest) =>
    if (skipBlanks rest).isEmpty then value else .scalar .environment (.str text)
  | none => .scalar .environment (.str text)

/-- A value at the end of a path of tables. -/
def nest (value : SettingValue) (path : List String) : SettingValue :=
  path.foldr (fun name inner => .table .environment (.ofList [(name, inner)])) value

/-- The settings of all variables, one laid over the other in ascending order of the names. -/
def layer (env : Dict String) : SettingValue :=
  env.entries.foldl (fun layer (name, text) =>
    match path? name with
    | some path => layer.overlay (nest (readText text) path)
    | none => layer) (.table .environment .empty)

end Environment

end HeaderBinding
