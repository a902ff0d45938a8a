/-!
# Slices by Byte Offset

The nodes of a syntax tree name parts of the source by byte offsets into its UTF-8 form. `slice?`
takes such a part from a list of characters. It has no answer when an offset falls inside a
character, lies beyond the text, or when the start comes after the end, so a caller can tell a slice
that exists from one that does not.

## Main definitions

* `byteLength`: The number of bytes of a text.
* `dropBytes?`, `takeBytes?`: The text behind, and in front of, an offset.
* `slice?`: The text between two offsets.
-/

namespace HeaderBinding

namespace Text

/-- The number of bytes of the UTF-8 form. -/
def byteLength : List Char → Nat
  | [] => 0
  | c :: cs => c.utf8Size + byteLength cs

/-- The text behind the first `n` bytes, if they end at a character boundary. -/
def dropBytes? : List Char → Nat → Option (List Char)
  | cs, 0 => some cs
  | [], _ + 1 => none
  | c :: cs, n + 1 => if c.utf8Size ≤ n + 1 then dropBytes? cs (n + 1 - c.utf8Size) else none

/-- The first `n` bytes, if they end at a character boundary. -/
def takeBytes? : List Char → Nat → Option (List Char)
  | _, 0 => some []
  | [], _ + 1 => none
  | c :: cs, n + 1 =>
    if c.utf8Size ≤ n + 1 then (takeBytes? cs (n + 1 - c.utf8Size)).map (c :: ·) else none

/-- The text from byte `start` up to byte `stop`, if both are character boundaries of the text and
    the start is not after the end. -/
def slice? (cs : List Char) (start stop : Nat) : Option (List Char) :=
  if start ≤ stop then (dropBytes? cs start).bind (takeBytes? · (stop - start)) else none

end Text

end HeaderBinding
