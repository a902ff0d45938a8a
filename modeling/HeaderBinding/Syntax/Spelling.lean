import HeaderBinding.Text.Blank
import HeaderBinding.Text.Word

/-!
# Spelling

How names, types and comments are written down in records. Blanks are evened out, a pointer or
reference mark has a space in front of it, and a comment loses the marks that make it one.

## Main definitions

* `normalize`: One space between words and none at the ends.
* `spellType`: The spelling of a type.
* `qualified`: A name inside a scope.
* `withoutTemplateArgs`: A name without what follows it in angle brackets.
* `cleanComment`: The text of a comment.
-/

namespace HeaderBinding

namespace Syntax

/-- The words of a text with one space between neighbours. -/
def normalize (text : List Char) : List Char :=
  Text.joinWith [' '] (Text.words text)

/-- A mark of a pointer or reference. -/
def isMark (c : Char) : Bool :=
  c == '*' || c == '&'

/-- Put a space in front of every run of marks that has none. `previous` is the character in
    front. -/
def spaceMarks (previous : Char) : List Char → List Char
  | [] => []
  | c :: cs =>
    if isMark c && !(previous == ' ' || isMark previous) then ' ' :: c :: spaceMarks c cs
    else c :: spaceMarks c cs

/-- The spelling of a type: normalized, with a space in front of every run of marks. -/
def spellType (text : List Char) : List Char :=
  spaceMarks ' ' (normalize text)

/-- A name inside a scope; the outermost scope has no name. -/
def qualified (scope name : String) : String :=
  if scope.isEmpty then name else scope ++ "::" ++ name

/-- A name without what follows it in angle brackets. -/
def withoutTemplateArgs (name : List Char) : List Char :=
  Text.trim (name.takeWhile (· != '<'))

/-- One line of a comment without the marks of a comment. -/
def cleanCommentLine (line : List Char) : List Char :=
  let line := Text.trim line
  let line := Text.dropAllPrefix "//!".toList line
  let line := Text.dropAllPrefix "///".toList line
  let line := Text.dropAllPrefix "//".toList line
  let line := Text.dropAllPrefix "/*".toList line
  let line := Text.dropAllSuffix "*/".toList line
  Text.trim (line.dropWhile (· == '*'))

/-- The lines of a comment that say something, without the marks of a comment. -/
def cleanComment (raw : List Char) : List Char :=
  Text.joinWith ['\n']
    (((Text.splitWhere (· == '\n') raw).map cleanCommentLine).filter (!·.isEmpty))

end Syntax

end HeaderBinding
