import HeaderBinding.Syntax.Node

/-!
# Declarators

The part of a declaration behind its type, which holds the declared name and wraps it in what makes
the type a pointer, a reference, an array or a function.

## Main definitions

* `declaredIdentifier?`: The name a declarator introduces.
* `functionDeclarator?`: The function below pointers and references.
* `isCallableName`: The kinds of node that name a function directly.
-/

namespace HeaderBinding

namespace Extraction

open Syntax

/-- A plain identifier. -/
def isIdentifier (kind : String) : Bool :=
  kind == "identifier" || kind == "field_identifier" || kind == "type_identifier"

/-- The name a declarator introduces: the first identifier on the way down, along the declarators as
    far as they are known by their field and through the named children otherwise. -/
def declaredIdentifier? (n : Node) : Option Node :=
  if isIdentifier n.kind then some n
  else match h : n.child? "declarator" with
    | some inner =>
      have := Node.sizeOf_lt_of_child? h
      declaredIdentifier? inner.node
    | none =>
      n.children.attach.findSome? fun ⟨child, hchild⟩ =>
        have := Node.sizeOf_lt_of_mem_children hchild
        if child.named then declaredIdentifier? child else none
termination_by sizeOf n

/-- The function declarator below pointers and references, and the marks they add to the return
    type. -/
def functionDeclarator? (n : Node) : Option (Node × List Char) :=
  if n.kind == "function_declarator" then some (n, [])
  else if n.kind == "pointer_declarator" then
    match h : n.child? "declarator" with
    | some inner =>
      have := Node.sizeOf_lt_of_child? h
      (functionDeclarator? inner.node).map fun (function, suffix) =>
        (function, ' ' :: '*' :: suffix)
    | none => none
  else if n.kind == "reference_declarator" then
    let mark := if n.children.any (·.kind == "&&") then [' ', '&', '&'] else [' ', '&']
    match h : n.rightmostNamed? with
    | some inner =>
      have := Node.sizeOf_lt_of_rightmostNamed? h
      (functionDeclarator? inner).map fun (function, suffix) => (function, mark ++ suffix)
    | none => none
  else none
termination_by sizeOf n

/-- A kind of node that names a function directly, without parentheses or pointers around the
    name. -/
def isCallableName (kind : String) : Bool :=
  ["identifier", "field_identifier", "operator_name", "destructor_name", "qualified_identifier",
    "template_function"].contains kind

end Extraction

end HeaderBinding
