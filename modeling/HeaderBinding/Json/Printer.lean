import HeaderBinding.Json.Basic
import HeaderBinding.Text.Digit

/-!
# Writing JSON Text

Two layouts of one value: all on one line, and one member or item a line, indented by two blanks a
level. Both share the quoting of strings, which escapes the quotation mark, the backslash and the
control characters and leaves everything else as it is.

## Main definitions

* `Json.quote`: A string between quotation marks.
* `Json.compact`: The layout on one line.
* `Json.pretty`: The layout with one entry a line.
-/

namespace HeaderBinding

namespace Json

/-- A character inside quotation marks. -/
def escape (c : Char) : List Char :=
  match c with
  | '"' => ['\\', '"']
  | '\\' => ['\\', '\\']
  | '\n' => ['\\', 'n']
  | '\r' => ['\\', 'r']
  | '\t' => ['\\', 't']
  | '\x08' => ['\\', 'b']
  | '\x0c' => ['\\', 'f']
  | c =>
    if c.toNat < 0x20 then
      ['\\', 'u', '0', '0', Text.hexDigit (c.toNat / 16), Text.hexDigit (c.toNat % 16)]
    else [c]

/-- A string between quotation marks. -/
def quote (text : String) : String :=
  String.ofList ('"' :: text.toList.flatMap escape ++ ['"'])

/-- A scalar in either layout. An unusable part is written as nothing at all would be: `null`. -/
def scalar : Json → String
  | bool true => "true"
  | bool false => "false"
  | int value => toString value
  | real digits exponent => toString digits ++ "e" ++ toString exponent
  | str value => quote value
  | _ => "null"

/-- The layout on one line, without blanks. -/
def compact : Json → String
  | arr items =>
    "[" ++ String.intercalate "," (items.attach.map fun ⟨item, _⟩ => item.compact) ++ "]"
  | obj members =>
    "\x7b" ++ String.intercalate "," (members.attach.map fun ⟨⟨key, value⟩, _⟩ =>
      quote key ++ ":" ++ value.compact) ++ "\x7d"
  | value => value.scalar
termination_by j => sizeOf j
decreasing_by
  · rename_i h
    have := List.sizeOf_lt_of_mem h
    simp only [arr.sizeOf_spec]
    omega
  · rename_i h
    have := List.sizeOf_lt_of_mem h
    simp only [obj.sizeOf_spec, Prod.mk.sizeOf_spec] at *
    omega

/-- A line break and the indentation of a level. -/
def newline (level : Nat) : String :=
  "\n" ++ String.ofList (List.replicate (2 * level) ' ')

/-- The layout with one entry a line, for a value that stands `level` levels deep. An empty
    container stays on its line. -/
def prettyAt (level : Nat) : Json → String
  | arr [] => "[]"
  | obj [] => "\x7b\x7d"
  | arr items =>
    "[" ++ newline (level + 1) ++
      String.intercalate ("," ++ newline (level + 1))
        (items.attach.map fun ⟨item, _⟩ => item.prettyAt (level + 1)) ++
      newline level ++ "]"
  | obj members =>
    "\x7b" ++ newline (level + 1) ++
      String.intercalate ("," ++ newline (level + 1))
        (members.attach.map fun ⟨⟨key, value⟩, _⟩ =>
          quote key ++ ": " ++ value.prettyAt (level + 1)) ++
      newline level ++ "\x7d"
  | value => value.scalar
termination_by j => sizeOf j
decreasing_by
  · rename_i h
    have := List.sizeOf_lt_of_mem h
    simp only [arr.sizeOf_spec]
    omega
  · rename_i h
    have := List.sizeOf_lt_of_mem h
    simp only [obj.sizeOf_spec, Prod.mk.sizeOf_spec] at *
    omega

/-- The layout with one entry a line. -/
def pretty (value : Json) : String :=
  value.prettyAt 0

end Json

end HeaderBinding
