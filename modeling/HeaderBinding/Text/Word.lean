import HeaderBinding.Text.WordTable

/-!
# Words and Their Boundaries

A word character is a letter, a digit, a mark or an underscore in the sense of Unicode. Between two
neighbouring characters, or at an end of the text, lies a word boundary when exactly one side is a
word character.

`standsAt` is the test that both the macro stripper and the qualifier are built on: does a given
text stand at this place, with a word boundary at each of its ends? Nothing is asked of the text
itself, so it may start or end with a character that is no word character.

## Main definitions

* `isWordChar`: The word characters.
* `boundary`: A word boundary between two optional neighbours.
* `standsAt`: A text stands at a place as a whole word.
* `scopeMark`: The two colons between the parts of a qualified name.
* `lastSegment`, `splitLastScope?`: Cutting a qualified name at its last scope mark.
* `splitScope`: Cutting a qualified name at all its scope marks.
-/

namespace HeaderBinding

namespace Text

/-- A character that can be part of a word. The ASCII case is decided without the table. -/
def isWordChar (c : Char) : Bool :=
  if c.toNat < 0x80 then c.isAlphanum || c == '_'
  else wordRanges.any fun r => r.1 ≤ c.toNat && c.toNat ≤ r.2

/-- A word boundary lies between two neighbours when exactly one of them is a word character; an
    end of the text counts as no word character. -/
def boundary (before after : Option Char) : Bool :=
  before.any isWordChar != after.any isWordChar

/-- `word` stands in front of `rest` with a word boundary at each end. `before` is the text already
    passed, nearest character first. -/
def standsAt (word before rest : List Char) : Bool :=
  word.isPrefixOf rest && boundary before.head? rest.head? &&
    boundary (word.reverse ++ before).head? (rest.drop word.length).head?

/-- The two colons between the parts of a qualified name. -/
def scopeMark : List Char := [':', ':']

/-- The characters in front of the first scope mark. -/
def beforeScopeMark : List Char → List Char
  | ':' :: ':' :: _ => []
  | c :: cs => c :: beforeScopeMark cs
  | [] => []

/-- The part of a qualified name behind its last scope mark, or all of it if there is none. -/
def lastSegment (name : List Char) : List Char :=
  (beforeScopeMark name.reverse).reverse

/-- A qualified name cut at its last scope mark, if it has one. -/
def splitLastScope? (name : List Char) : Option (List Char × List Char) :=
  let segment := lastSegment name
  if segment.length < name.length then
    some (name.take (name.length - segment.length - 2), segment)
  else none

/-- The pieces between the scope marks, taken from the left. -/
def splitScope : List Char → List (List Char)
  | [] => [[]]
  | ':' :: ':' :: cs => [] :: splitScope cs
  | c :: cs =>
    match splitScope cs with
    | [] => [[c]]
    | piece :: pieces => (c :: piece) :: pieces

end Text

end HeaderBinding
