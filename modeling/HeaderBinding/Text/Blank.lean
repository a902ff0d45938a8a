/-!
# Blanks, Lines and Runs of Text

Cutting text at blanks and at separators. A blank is a character with the property White_Space, a
wider class than the ASCII blanks: it holds the next-line control, the no-break space and the
typographic spaces.

All functions here work on lists of characters, so that statements about them are inductions over a
list; `String` appears only where a record is read or written.

## Main definitions

* `isBlank`: The property White_Space.
* `trimStart`, `trimEnd`, `trim`: Dropping the blanks at the ends.
* `splitWhere`: The pieces between the characters a test picks out.
* `words`: The non-empty pieces between blanks.
* `joinWith`: Pieces put together again with a separator between them.
-/

namespace HeaderBinding

namespace Text

/-- A character with the property White_Space. -/
def isBlank (c : Char) : Bool :=
  let n := c.toNat
  (9 ≤ n && n ≤ 13) || n == 0x20 || n == 0x85 || n == 0xA0 || n == 0x1680 ||
    (0x2000 ≤ n && n ≤ 0x200A) || n == 0x2028 || n == 0x2029 || n == 0x202F || n == 0x205F ||
    n == 0x3000

/-- Drop the characters at the end that pass a test. -/
def dropEndWhile (p : Char → Bool) (cs : List Char) : List Char :=
  (cs.reverse.dropWhile p).reverse

/-- Drop the blanks in front. -/
def trimStart (cs : List Char) : List Char :=
  cs.dropWhile isBlank

/-- Drop the blanks at the end. -/
def trimEnd (cs : List Char) : List Char :=
  dropEndWhile isBlank cs

/-- Drop the blanks at both ends. -/
def trim (cs : List Char) : List Char :=
  trimEnd (trimStart cs)

/-- The pieces between the characters that pass a test. There is always one more piece than there
    are such characters, so the list is never empty. -/
def splitWhere (p : Char → Bool) : List Char → List (List Char)
  | [] => [[]]
  | c :: cs =>
    if p c then [] :: splitWhere p cs
    else match splitWhere p cs with
      | [] => [[c]]
      | piece :: pieces => (c :: piece) :: pieces

/-- The non-empty pieces between blanks. -/
def words (cs : List Char) : List (List Char) :=
  (splitWhere isBlank cs).filter (!·.isEmpty)

/-- The pieces in order with `separator` between neighbours. -/
def joinWith (separator : List Char) : List (List Char) → List Char
  | [] => []
  | [piece] => piece
  | piece :: pieces => piece ++ separator ++ joinWith separator pieces

/-- Drop every copy of `start` in front. An empty `start` leaves the text as it is. -/
def dropAllPrefix (start : List Char) (cs : List Char) : List Char :=
  if h : start ≠ [] ∧ start.isPrefixOf cs then
    have : cs.length - start.length < cs.length := by
      have hpos : 0 < start.length := List.length_pos_iff.mpr h.1
      have hle : start.length ≤ cs.length := (List.isPrefixOf_iff_prefix.mp h.2).length_le
      omega
    dropAllPrefix start (cs.drop start.length)
  else cs
termination_by cs.length

/-- Drop every copy of `stop` at the end. -/
def dropAllSuffix (stop : List Char) (cs : List Char) : List Char :=
  (dropAllPrefix stop.reverse cs.reverse).reverse

end Text

end HeaderBinding
