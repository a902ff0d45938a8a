import HeaderBinding.Syntax.Node
import HeaderBinding.Syntax.Spelling
import HeaderBinding.Text.Slice

/-!
# Source and Tree

Extraction reads parts of the source that nodes of the tree cover. A part that does not exist, since
its offsets are out of order, beyond the text or inside a character, is a fault of the tree, and so
is a table that points to an entry which is not there. Faults are kept apart from every other
outcome, so that their absence can be stated.

## Main definitions

* `Fault`: What a malformed tree can lead to.
* `Extract`: A result, or a fault.
* `slice`, `textOf`: A part of the source.
* `docComment`: The comment in front of a node.
-/

namespace HeaderBinding

namespace Extraction

open Syntax

/-- What a malformed tree can lead to. -/
inductive Fault where
  /-- A part of the source that does not exist. -/
  | badSlice (start stop : Nat)
  /-- A recorded class that is not there. -/
  | missingClass (slot : Nat)
  /-- A recorded class template that is not there. -/
  | missingTemplate (slot : Nat)
deriving DecidableEq, Inhabited, Repr

/-- A result, or a fault. -/
abbrev Extract (α : Type) := Except Fault α

/-- The source between two offsets. -/
def slice (code : List Char) (start stop : Nat) : Extract (List Char) :=
  match Text.slice? code start stop with
  | some text => .ok text
  | none => .error (.badSlice start stop)

/-- The source that a node covers. -/
def textOf (code : List Char) (n : Node) : Extract (List Char) :=
  slice code n.start n.stop

/-- The source that a node covers, as a string. -/
def nameOf (code : List Char) (n : Node) : Extract String := do
  return String.ofList (← textOf code n)

/-- The items of a list that a step gives a result for, in order. -/
def collect {α β : Type} (step : α → Extract (Option β)) (items : List α) : Extract (List β) := do
  return (← items.mapM step).filterMap id

/-- The comments directly in front of a node, cleaned and joined, if they say anything. -/
def docComment (code : List Char) (n : Located) : Extract (Option String) := do
  let comments := (n.before.takeWhile (·.kind == "comment")).reverse
  let lines ← comments.mapM fun comment => do return cleanComment (← textOf code comment)
  let doc := Text.trim (Text.joinWith ['\n'] lines)
  return if doc.isEmpty then none else some (String.ofList doc)

/-- A child of the node is a keyword, or a specifier spelled like it. -/
def hasSpecifier (code : List Char) (n : Node) (keyword : String) : Extract Bool :=
  n.children.anyM fun child => do
    if child.kind == keyword then return true
    if ["storage_class_specifier", "virtual", "virtual_function_specifier"].contains child.kind then
      return (← textOf code child) == keyword.toList
    return false

end Extraction

end HeaderBinding
