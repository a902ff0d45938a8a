import HeaderBinding.Extraction.Declarator
import HeaderBinding.Extraction.Source
import HeaderBinding.Record.Signature

/-!
# Functions, Parameters and Other Leaves

The records that can be read off one declaration without looking into a class body: parameters,
functions and methods, enumerations, typedefs and aliases, and the parameters of templates.

## Main definitions

* `argument?`, `arguments`: The parameters of a function.
* `callable`: A function or method.
* `enumeration?`: An enumeration with its values.
* `typedef?`, `alias?`: Another name for a type.
* `templateParam?`, `templateParams`: The parameters of a template.
-/

namespace HeaderBinding

namespace Extraction

open Syntax

/-- The spelling of a type between two texts, as a string. -/
def spell (text : List Char) : String :=
  String.ofList (spellType text)

/-- The end of the part of a parameter that spells its type and name: in front of a default value
    and the sign before it, or else the end of the parameter. -/
def parameterStop (code : List Char) (param : Node) : Extract Nat := do
  match param.child? "default_value" with
  | none => return param.stop
  | some value =>
    let before := Text.trimEnd (← slice code param.start value.node.start)
    let declared := if before.getLast? == some '=' then Text.trimEnd before.dropLast else before
    return param.start + Text.byteLength declared

/-- A parameter. Its type is what is left of its spelling without the name. A lone `void` declares
    no parameter. -/
def argument? (code : List Char) (param : Node) : Extract (Option Argument) := do
  let start := param.start
  let stop ← parameterStop code param
  let name := ((param.child? "declarator").bind fun d => declaredIdentifier? d.node).filter
    fun n => start ≤ n.start && n.stop ≤ stop
  let spelled ← match name with
    | some n => pure ((← slice code start n.start) ++ (← slice code n.stop stop))
    | none => slice code start stop
  let type := spell spelled
  if type == "void" && name.isNone then return none
  let defaultValue ← (param.child? "default_value").mapM fun d => do
    return String.ofList (normalize (← textOf code d.node))
  return some {
    name := ← match name with
      | some n => nameOf code n
      | none => pure ""
    type := if type.isEmpty then none else some type
    defaultValue }

/-- A kind of node that is a parameter of a function. -/
def isParameter (kind : String) : Bool :=
  kind == "parameter_declaration" || kind == "optional_parameter_declaration"

/-- The parameters of a list. -/
def arguments (code : List Char) (list : Node) : Extract (List Argument) :=
  collect (argument? code) (list.children.filter (isParameter ·.kind))

/-- The text between a function and the end of its declaration starts with `= 0`, blanks aside. -/
def isPureVirtual (code : List Char) (declaration function : Node) : Extract Bool := do
  let tail ← slice code function.stop declaration.stop
  return ['=', '0'].isPrefixOf (tail.filter (!Text.isBlank ·))

/-- The return type of a declaration, if it spells one: the qualifiers in front of the type, the
    type, and the marks of the declarator. -/
def returnType? (code : List Char) (declaration : Node) (suffix : List Char) :
    Extract (Option String) :=
  (declaration.child? "type").mapM fun type => do
    let qualifiers := type.before.reverse.filter (·.kind == "type_qualifier")
    let parts ← (qualifiers ++ [type.node]).mapM (textOf code)
    return spell (Text.joinWith [' '] parts ++ suffix)

/-- The function or method of a declaration whose function declarator and name are known. -/
def callable (code : List Char) (declaration : Located) (function : Node) (suffix : List Char)
    (name : String) : Extract Method := do
  let args ← match function.child? "parameters" with
    | some list => arguments code list.node
    | none => pure []
  let returnType ← returnType? code declaration.node suffix
  return {
    name
    fullName := displaySignature name args
    args
    returnType
    comment := ← docComment code declaration
    isConst := ← function.children.anyM fun child => do
      if child.kind == "type_qualifier" then return (← textOf code child) == "const".toList
      return false
    isStatic := ← hasSpecifier code declaration.node "static"
    isVirtual := ← hasSpecifier code declaration.node "virtual"
    isPureVirtual := ← isPureVirtual code declaration.node function }

/-- An enumeration with a body. One without a name takes the name of its scope. -/
def enumeration? (code : List Char) (n : Located) (scope : String) :
    Extract (Option Enumeration) := do
  match n.node.child? "body" with
  | none => return none
  | some body =>
    let enumerators := body.node.children.filter (·.kind == "enumerator")
    let values ← (enumerators.filterMap (·.child? "name")).mapM fun name => nameOf code name.node
    let name := n.node.child? "name"
    return some {
      name := ← match name with
        | some name => pure (qualified scope (← nameOf code name.node))
        | none => pure scope
      values
      comment := ← docComment code n
      anonymous := name.isNone }

/-- The type a typedef gives a name to. One with a body stands for the name it has itself. -/
def aliasedType (code : List Char) (type : Node) : Extract (List Char) :=
  if (type.child? "body").isSome then
    match type.child? "name" with
    | some name => textOf code name.node
    | none => pure []
  else textOf code type

/-- A typedef: the type with what is left of the declarator without the name. -/
def typedef? (code : List Char) (n : Located) (scope : String) : Extract (Option Typedef) := do
  match n.node.child? "type", n.node.child? "declarator" with
  | some type, some declarator =>
    match declaredIdentifier? declarator.node with
    | none => return none
    | some name =>
      let base ← aliasedType code type.node
      let front ← slice code declarator.node.start name.start
      let back ← slice code name.stop declarator.node.stop
      return some {
        name := qualified scope (← nameOf code name)
        underlying := spell (base ++ [' '] ++ front ++ back)
        comment := ← docComment code n }
  | _, _ => return none

/-- An alias. -/
def alias? (code : List Char) (n : Located) (scope : String) : Extract (Option Typedef) := do
  match n.node.child? "name", n.node.child? "type" with
  | some name, some type =>
    return some {
      name := qualified scope (← nameOf code name.node)
      underlying := spell (← textOf code type.node)
      comment := ← docComment code n }
  | _, _ => return none

/-- The spelling of the type in a field of a node, if it is there. -/
def spelledChild? (code : List Char) (n : Node) (field : String) : Extract (Option String) :=
  (n.child? field).mapM fun child => do return spell (← textOf code child.node)

/-- A parameter of a template, if it has a name. -/
def templateParam? (code : List Char) (param : Node) : Extract (Option TemplateParam) := do
  match param.kind with
  | "type_parameter_declaration" | "variadic_type_parameter_declaration" =>
    (param.children.reverse.find? (·.kind == "type_identifier")).mapM fun name => do
      return { kind := .type, name := ← nameOf code name }
  | "optional_type_parameter_declaration" =>
    (param.child? "name").mapM fun name => do
      return {
        kind := .type
        name := ← nameOf code name.node
        defaultValue := ← spelledChild? code param "default_type" }
  | "parameter_declaration" | "optional_parameter_declaration" =>
    match param.child? "type",
      (param.child? "declarator").bind fun d => declaredIdentifier? d.node with
    | some type, some name =>
      return some {
        kind := .nonType (spell (← textOf code type.node))
        name := ← nameOf code name
        defaultValue := ← (param.child? "default_value").mapM fun d => do
          return String.ofList (normalize (← textOf code d.node)) }
    | _, _ => return none
  | "template_template_parameter_declaration" =>
    match h : param.rightmostNamed? with
    | some inner =>
      have := Node.sizeOf_lt_of_rightmostNamed? h
      return (← templateParam? code inner).map fun p => { p with kind := .template }
    | none => return none
  | _ => return none
termination_by sizeOf param

/-- The parameters of a template that have a name. -/
def templateParams (code : List Char) (list : Node) : Extract (List TemplateParam) :=
  collect (templateParam? code) list.children

end Extraction

end HeaderBinding
