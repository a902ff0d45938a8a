import HeaderBinding.Decimal.Shortest
import HeaderBinding.Text.Digit
import HeaderBinding.Toml.Basic
import HeaderBinding.Toml.Text

/-!
# Writing TOML Text

A layout for people: each table has a header of its own, in front of it an empty line; a table that
only holds tables has none. An array of two or more items stands on several lines. A string is
written in the plainest of the four forms that can hold it: between quotation marks if nothing in it
needs an escape, else between apostrophes, else on several lines, and with escapes if all else
fails.

## Main definitions

* `Writer.string`: A string in the form that suits it.
* `Writer.key`: One part of a key.
* `Writer.inline`: A value on the line of its key.
* `Toml.pretty`: A whole document.
-/

namespace HeaderBinding

namespace Toml

namespace Writer

open Text

/-- A character that no string can hold without an escape. A tab and a line break are none. -/
def needsCode (c : Char) : Bool :=
  (c.toNat < 0x20 && c != '\t' && c != '\n') || c.toNat == 0x7F

/-- The length of the longest run of a character. `run` is the length of the run that ends here. -/
def longestRun (mark : Char) : Nat → List Char → Nat
  | run, [] => run
  | run, c :: cs =>
    if c == mark then longestRun mark (run + 1) cs else max run (longestRun mark 0 cs)

/-- The escape of a character, if it has one. -/
def escape? : Char → Option (List Char)
  | '\x08' => some ['\\', 'b']
  | '\t' => some ['\\', 't']
  | '\n' => some ['\\', 'n']
  | '\x0c' => some ['\\', 'f']
  | '\r' => some ['\\', 'r']
  | '"' => some ['\\', '"']
  | '\\' => some ['\\', '\\']
  | c =>
    if needsCode c then
      let digits := (hexText c.toNat).map Char.toUpper
      some (['\\', 'u'] ++ List.replicate (4 - digits.length) '0' ++ digits)
    else none

/-- The text of a basic string on one line. -/
def basicBody (cs : List Char) : List Char :=
  cs.flatMap fun c => (escape? c).getD [c]

/-- The text of a basic string on several lines: line breaks stand for themselves, and so does a
    quotation mark unless `run` others stand in front of it and it would be the third. -/
def longBasicBody : Nat → List Char → List Char
  | _, [] => []
  | _, '\n' :: cs => '\n' :: longBasicBody 0 cs
  | run, '"' :: cs =>
    if run = 2 then ['\\', '"'] ++ longBasicBody 0 cs else '"' :: longBasicBody (run + 1) cs
  | _, c :: cs => (escape? c).getD [c] ++ longBasicBody 0 cs

/-- The forms of strings. -/
inductive Form where
  | basic
  | literal
  | longBasic
  | longLiteral
deriving DecidableEq, Inhabited, Repr

/-- The plainest form that can hold a text. -/
def formOf (cs : List Char) : Form :=
  let codes := cs.any needsCode
  let escapes := cs.contains '\\'
  let lines := cs.contains '\n'
  if !codes && !escapes && !cs.contains '"' && !lines then .basic
  else if !codes && !cs.contains '\'' && !lines then .literal
  else if !codes && !escapes && longestRun '"' 0 cs ≤ 2 then .longBasic
  else if !codes && longestRun '\'' 0 cs ≤ 2 then .longLiteral
  else if lines then .longBasic
  else .basic

/-- A text in a form. A long form starts on a line of its own if the text has lines. -/
def inForm (cs : List Char) : Form → List Char
  | .basic => '"' :: basicBody cs ++ ['"']
  | .literal => '\'' :: cs ++ ['\'']
  | .longBasic =>
    let marks := ['"', '"', '"']
    marks ++ (if cs.contains '\n' then ['\n'] else []) ++ longBasicBody 0 cs ++ marks
  | .longLiteral =>
    let marks := ['\'', '\'', '\'']
    marks ++ (if cs.contains '\n' then ['\n'] else []) ++ cs ++ marks

/-- A string in the form that suits it. -/
def string (text : String) : String :=
  String.ofList (inForm text.toList (formOf text.toList))

/-- One part of a key: a bare word if it can be one, else a string on one line. -/
def key (text : String) : String :=
  let cs := text.toList
  let codes := cs.any needsCode || cs.contains '\n'
  if !cs.isEmpty && cs.all Reader.isBare then text
  else if !codes && !cs.contains '\\' && !cs.contains '"' then String.ofList (inForm cs .basic)
  else if !codes && !cs.contains '\'' then String.ofList (inForm cs .literal)
  else String.ofList (inForm cs .basic)

/-- A float, which always has a point or a word. -/
def float (value : Binary64) : String :=
  match value with
  | .nan => "nan"
  | .infinite _ => value.text
  | .finite .. => if value.text.toList.contains '.' then value.text else value.text ++ ".0"

/-- The items of an array: one of them beside the brackets, several on a line each. -/
def bracket : List String → String
  | [] => "[]"
  | [item] => "[" ++ item ++ "]"
  | items => "[\n" ++ String.join (items.map fun item => "    " ++ item ++ ",\n") ++ "]"

/-- A value on the line of its key. -/
def inline : Toml → String
  | .bool value => if value then "true" else "false"
  | .int value => toString value
  | .float value => float value
  | .str value => string value
  | .moment text => text
  | .arr items => bracket (items.attach.map fun ⟨item, _⟩ => inline item)
  | .table entries =>
    if entries.isEmpty then "\x7b\x7d"
    else "\x7b " ++ String.intercalate ", " (entries.attach.map fun ⟨⟨name, value⟩, _⟩ =>
      key name ++ " = " ++ inline value) ++ " \x7d"
termination_by value => sizeOf value
decreasing_by
  all_goals
    rename_i h
    have := List.sizeOf_lt_of_mem h
    simp only [arr.sizeOf_spec, table.sizeOf_spec, Prod.mk.sizeOf_spec] at *
    omega

/-- The line of an entry that is no table. -/
def line (name : String) (value : Toml) : String :=
  key name ++ " = " ++ inline value ++ "\n"

/-- The parts of a document that a table fills, each with its header: the table's own lines, and
    then the tables in it. -/
def sections (path : List String) (entries : List (String × Toml)) : List String :=
  let own := entries.filterMap fun
    | (_, .table _) => none
    | (name, value) => some (line name value)
  let inner := entries.attach.flatMap fun
    | ⟨(name, .table inner), _⟩ => sections (path ++ [name]) inner
    | _ => []
  let header :=
    if path.isEmpty then "" else "[" ++ String.intercalate "." (path.map key) ++ "]\n"
  if own.isEmpty && !(inner.isEmpty && !path.isEmpty) then inner
  else (header ++ String.join own) :: inner
termination_by sizeOf entries
decreasing_by
  rename_i h
  have := List.sizeOf_lt_of_mem h
  simp only [Prod.mk.sizeOf_spec, table.sizeOf_spec] at *
  omega

end Writer

/-- A whole document with that table. -/
def pretty : Toml → String
  | .table entries => String.intercalate "\n" (Writer.sections [] entries)
  | value => Writer.inline value

end Toml

end HeaderBinding
