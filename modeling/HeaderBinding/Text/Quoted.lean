import HeaderBinding.Text.Digit
import HeaderBinding.Text.PlainTable

/-!
# Quoted Texts

A text between quotation marks, on one line and with every character visible, as messages show it.
The quotation mark, the backslash and the common controls have escapes of one letter; any other
character that could not be seen, or would join the one before it, is shown by its number.

## Main definitions

* `Quoted.isPlain`: The characters that stand for themselves.
* `quoted`: A text between quotation marks.
-/

namespace HeaderBinding

namespace Text

namespace Quoted

/-- A character that stands for itself. -/
def isPlain (c : Char) : Bool :=
  let n := c.toNat
  if n < 0x7F then 0x20 ≤ n else plainRanges.any fun (first, last) => first ≤ n && n ≤ last

/-- A character between quotation marks. -/
def escape : Char → List Char
  | '\x00' => ['\\', '0']
  | '\t' => ['\\', 't']
  | '\r' => ['\\', 'r']
  | '\n' => ['\\', 'n']
  | '"' => ['\\', '"']
  | '\\' => ['\\', '\\']
  | c => if isPlain c then [c] else ['\\', 'u', '{'] ++ hexText c.toNat ++ ['}']

end Quoted

/-- A text between quotation marks. -/
def quoted (text : String) : String :=
  String.ofList ('"' :: text.toList.flatMap Quoted.escape ++ ['"'])

end Text

end HeaderBinding
