import HeaderBinding.Toml.Document
import HeaderBinding.Toml.Number
import HeaderBinding.Toml.Text

/-!
# Reading TOML Text

A document is a byte order mark, if any, and lines; a line holds a header, an assignment or nothing,
and may end in a comment. The lines are read as statements first, and the statements then define the
tables.

Recursion over values runs on the number of levels that may still be opened, recursion over items
and lines on a count of steps that is taken from the length of the text.

## Main definitions

* `Reader.readValue`: Any value.
* `Reader.readStatements`: The statements of a document.
* `Toml.read?`: The table of a whole text.
-/

namespace HeaderBinding

namespace Toml

namespace Reader

/-- Drop a comment up to the end of its line. -/
def skipComment : List Char → List Char
  | '#' :: cs => cs.dropWhile isVisible
  | cs => cs

/-- The text behind the end of a line, in front of which only blanks and a comment may stand. The
    last line ends with the text. -/
def lineEnd? (cs : List Char) : Option (List Char) :=
  match skipComment (skipBlanks cs) with
  | [] => some []
  | cs => newline? cs

/-- Drop blanks, line breaks and comments between the items of an array. -/
def skipLines : Nat → List Char → List Char
  | 0, cs => cs
  | steps + 1, cs =>
    let rest := skipComment (skipBlanks cs)
    match newline? rest with
    | some rest => skipLines steps rest
    | none => rest

/-- A word of the format, if the text starts with it. -/
def readWord (word : String) (value : Toml) (cs : List Char) : Option (Toml × List Char) :=
  (word.toList.isPrefixOf? cs).map fun rest => (value, rest)

/-- A key that an assignment gives a value: the path to its table, the key, and the text behind the
    sign between key and value. -/
def readTarget (cs : List Char) : Option (List String × String × List Char) := do
  let (parts, cs) ← readKey cs
  let key ← parts.getLast?
  let '=' :: cs := cs | none
  return (parts.dropLast, key, skipBlanks cs)

/-- The items of an array up to its closing bracket, read by `read`. -/
def readItems (read : List Char → Option (Toml × List Char)) :
    Nat → List Char → Option (List Toml × List Char)
  | 0, _ => none
  | steps + 1, cs =>
    match skipLines cs.length cs with
    | ']' :: cs => some ([], cs)
    | cs => do
      let (item, cs) ← read cs
      match skipLines cs.length cs with
      | ']' :: cs => return ([item], cs)
      | ',' :: cs =>
        let (items, cs) ← readItems read steps cs
        return (item :: items, cs)
      | _ => none

/-- The assignments of an inline table up to its closing brace, at least one, with values read by
    `read`. -/
def readAssignments (read : List Char → Option (Toml × List Char)) :
    Nat → List Char → Option (List (List String × String × Toml) × List Char)
  | 0, _ => none
  | steps + 1, cs => do
    let (path, key, cs) ← readTarget cs
    let (value, cs) ← read cs
    match skipBlanks cs with
    | '}' :: cs => return ([(path, key, value)], cs)
    | ',' :: cs =>
      let (assignments, cs) ← readAssignments read steps cs
      return ((path, key, value) :: assignments, cs)
    | _ => none

/-- A value that starts with neither a bracket nor a brace. -/
def readScalar (cs : List Char) : Option (Toml × List Char) :=
  match cs with
  | [] => none
  | c :: _ =>
    if c == '"' || c == '\'' then do
      let (text, cs) ← readString cs
      return (.str (String.ofList text), cs)
    else if c == 't' then readWord "true" (.bool true) cs
    else if c == 'f' then readWord "false" (.bool false) cs
    else readMoment cs <|> readNumber cs

/-- A value. `room` is the number of levels that may still be opened. -/
def readValue : Nat → List Char → Option (Toml × List Char)
  | room, '[' :: cs =>
    match room with
    | 0 => none
    | room + 1 => do
      let (items, cs) ← readItems (readValue room) (cs.length + 1) cs
      return (.arr items, cs)
  | room, '{' :: cs =>
    match room with
    | 0 => none
    | room + 1 =>
      match skipBlanks cs with
      | '}' :: cs => some (.table [], cs)
      | cs => do
        let (assignments, cs) ← readAssignments (readValue room) (cs.length + 1) cs
        return (← ofAssignments? assignments, cs)
  | _, cs => readScalar cs

/-- The key of a header, and the text behind the closing brackets. -/
def readHeader (closing : List Char) (cs : List Char) :
    Option (List String × String × List Char) := do
  let (parts, cs) ← readKey cs
  return (parts.dropLast, ← parts.getLast?, ← closing.isPrefixOf? cs)

/-- A statement, behind the blanks in front of it. -/
def readStatement : List Char → Option (Statement × List Char)
  | '[' :: '[' :: cs => do
    let (path, key, cs) ← readHeader [']', ']'] cs
    return (.elementHeader path key, cs)
  | '[' :: cs => do
    let (path, key, cs) ← readHeader [']'] cs
    return (.header path key, cs)
  | cs => do
    let (path, key, cs) ← readTarget cs
    let (value, cs) ← readValue depthLimit cs
    return (.assignment path key value, cs)

/-- The statements of a document, line by line. -/
def readStatements : Nat → List Char → Option (List Statement)
  | _, [] => some []
  | 0, _ => none
  | steps + 1, cs =>
    match lineEnd? cs with
    | some cs => readStatements steps cs
    | none => do
      let (statement, cs) ← readStatement (skipBlanks cs)
      let cs ← lineEnd? cs
      return statement :: (← readStatements steps cs)

end Reader

/-- The byte order mark, which may stand in front of a document. -/
def byteOrderMark : Char := '\uFEFF'

/-- The table of a whole text. -/
def read? (text : String) : Option Toml :=
  let cs := match text.toList with
    | c :: cs => if c == byteOrderMark then cs else c :: cs
    | [] => []
  (Reader.readStatements (cs.length + 1) cs).bind ofStatements?

end Toml

end HeaderBinding
