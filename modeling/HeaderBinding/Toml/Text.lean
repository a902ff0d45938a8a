import HeaderBinding.Text.Digit

/-!
# Strings and Keys in TOML

The four kinds of strings: basic ones, where a backslash starts an escape, and literal ones, where
it does not, each on one line or on several. And keys: bare words and one-line strings, joined by
dots.

Every function takes the text still to be read and gives back what it read together with what is
left.

## Main definitions

* `Reader.readBasic`, `Reader.readLiteral`: Strings on one line, behind their opening mark.
* `Reader.readLongBasic`, `Reader.readLongLiteral`: Strings on several lines.
* `Reader.readString`: Any string.
* `Reader.readKey`: A key with its parts.
-/

namespace HeaderBinding

namespace Toml

namespace Reader

open Text

/-- A blank within a line. -/
def isBlank (c : Char) : Bool := c == ' ' || c == '\t'

/-- Drop the blanks within a line. -/
def skipBlanks (cs : List Char) : List Char := cs.dropWhile isBlank

/-- A character that may stand in a string or a comment as it is. -/
def isVisible (c : Char) : Bool := c == '\t' || (0x20 ≤ c.toNat && c.toNat != 0x7F)

/-- The text behind a line break, if there is one. -/
def newline? : List Char → Option (List Char)
  | '\n' :: cs => some cs
  | '\r' :: '\n' :: cs => some cs
  | _ => none

/-- Drop a line break, if there is one. -/
def dropNewline (cs : List Char) : List Char := (newline? cs).getD cs

/-- Nothing but blanks up to the next line break. -/
def endsLine (cs : List Char) : Bool := (newline? (skipBlanks cs)).isSome

/-- The character that an escape of one letter stands for. -/
def shortEscape? : Char → Option Char
  | 'b' => some '\x08'
  | 't' => some '\t'
  | 'n' => some '\n'
  | 'f' => some '\x0c'
  | 'r' => some '\r'
  | '"' => some '"'
  | '\\' => some '\\'
  | _ => none

/-- A character in front of a text that may have been read. -/
def before? (c : Option Char) (read : Option (List Char × List Char)) :
    Option (List Char × List Char) := do
  let c ← c
  let (text, rest) ← read
  return (c :: text, rest)

/-- A character in front of a text that may have been read, if a string can hold it. -/
def visibleBefore? (c : Char) (read : Option (List Char × List Char)) :
    Option (List Char × List Char) :=
  before? (if isVisible c then some c else none) read

/-- A basic string on one line, behind its opening mark. -/
def readBasic : List Char → Option (List Char × List Char)
  | [] => none
  | '"' :: cs => some ([], cs)
  | '\\' :: 'u' :: a :: b :: c :: d :: cs => before? (codePoint? [a, b, c, d]) (readBasic cs)
  | '\\' :: 'U' :: a :: b :: c :: d :: e :: f :: g :: h :: cs =>
    before? (codePoint? [a, b, c, d, e, f, g, h]) (readBasic cs)
  | '\\' :: c :: cs => before? (shortEscape? c) (readBasic cs)
  | c :: cs => visibleBefore? c (readBasic cs)

/-- A literal string on one line, behind its opening mark. -/
def readLiteral : List Char → Option (List Char × List Char)
  | [] => none
  | '\'' :: cs => some ([], cs)
  | c :: cs => visibleBefore? c (readLiteral cs)

/-- Up to two more marks that stand directly behind the closing three belong to the string. -/
def closeLong (mark : Char) : List Char → List Char × List Char
  | a :: b :: cs =>
    if a == mark then if b == mark then ([a, b], cs) else ([a], b :: cs) else ([], a :: b :: cs)
  | [a] => if a == mark then ([a], []) else ([], [a])
  | [] => ([], [])

/-- A basic string on several lines. A backslash at the end of a line joins it to the next word;
    while `joining`, blanks and line breaks are dropped. Line breaks are single characters whatever
    their spelling. -/
def readLongBasic : Bool → List Char → Option (List Char × List Char)
  | _, [] => none
  | _, '"' :: '"' :: '"' :: cs => some (closeLong '"' cs)
  | joining, '\r' :: '\n' :: cs =>
    if joining then readLongBasic true cs else before? (some '\n') (readLongBasic false cs)
  | joining, '\n' :: cs =>
    if joining then readLongBasic true cs else before? (some '\n') (readLongBasic false cs)
  | _, '\\' :: 'u' :: a :: b :: c :: d :: cs =>
    before? (codePoint? [a, b, c, d]) (readLongBasic false cs)
  | _, '\\' :: 'U' :: a :: b :: c :: d :: e :: f :: g :: h :: cs =>
    before? (codePoint? [a, b, c, d, e, f, g, h]) (readLongBasic false cs)
  | _, '\\' :: c :: cs =>
    if endsLine (c :: cs) then readLongBasic true (c :: cs)
    else before? (shortEscape? c) (readLongBasic false cs)
  | joining, c :: cs =>
    if joining && isBlank c then readLongBasic true cs
    else visibleBefore? c (readLongBasic false cs)

/-- A literal string on several lines. -/
def readLongLiteral : List Char → Option (List Char × List Char)
  | [] => none
  | '\'' :: '\'' :: '\'' :: cs => some (closeLong '\'' cs)
  | '\r' :: '\n' :: cs => before? (some '\n') (readLongLiteral cs)
  | '\n' :: cs => before? (some '\n') (readLongLiteral cs)
  | c :: cs => visibleBefore? c (readLongLiteral cs)

/-- A string of any kind. A line break directly behind three opening marks is not part of it. -/
def readString : List Char → Option (List Char × List Char)
  | '"' :: '"' :: '"' :: cs => readLongBasic false (dropNewline cs)
  | '"' :: cs => readBasic cs
  | '\'' :: '\'' :: '\'' :: cs => readLongLiteral (dropNewline cs)
  | '\'' :: cs => readLiteral cs
  | _ => none

/-- A character of a key without marks. -/
def isBare (c : Char) : Bool :=
  (c.toNat < 0x80 && c.isAlphanum) || c == '_' || c == '-'

/-- One part of a key. -/
def readKeyPart : List Char → Option (List Char × List Char)
  | '"' :: cs => readBasic cs
  | '\'' :: cs => readLiteral cs
  | cs =>
    let word := cs.takeWhile isBare
    if word.isEmpty then none else some (word, cs.dropWhile isBare)

/-- The greatest number of levels that keys, arrays and inline tables may go down. -/
def depthLimit : Nat := 79

/-- A key of at most `room` parts, with the blanks around them. -/
def readKeyParts : Nat → List Char → Option (List String × List Char)
  | 0, _ => none
  | room + 1, cs => do
    let (part, cs) ← readKeyPart (skipBlanks cs)
    match skipBlanks cs with
    | '.' :: cs =>
      let (parts, cs) ← readKeyParts room cs
      return (String.ofList part :: parts, cs)
    | cs => return ([String.ofList part], cs)

/-- A key with the blanks around it. -/
def readKey (cs : List Char) : Option (List String × List Char) :=
  readKeyParts depthLimit cs

end Reader

end Toml

end HeaderBinding
