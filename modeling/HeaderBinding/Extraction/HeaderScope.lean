import HeaderBinding.Extraction.ClassBody
import Std.Data.HashMap

/-!
# Headers

Reading everything a header declares. The walk goes through namespaces, linkage blocks and blocks of
conditional compilation, and files what it meets under the current namespace.

A class that is defined more than once is folded into one record; the same goes for a class
template. Slot tables keep track of where the record of each name stands. Member functions defined
outside their class are set aside and filed at the end, when all classes are known: only then can be
told whether the class declares them itself.

## Main definitions

* `Collector`: What has been read so far.
* `ScopeItem`: What a child of a scope is.
* `Collector.visitScope`: The walk through a scope.
* `Collector.finish`: Filing what was set aside.
* `extractHeader`: The record of a header from its source and tree.
-/

namespace HeaderBinding

namespace Extraction

open Syntax

/-- What has been read of a header. -/
structure Collector where
  header : Header
  /-- Where the record of each class stands. -/
  classSlots : Std.HashMap String Nat := ∅
  /-- Where the record of each class template stands. -/
  templateSlots : Std.HashMap String Nat := ∅
  /-- Member functions defined outside their class, with the name of the class. -/
  outOfLine : List (String × Method) := []

/-- What a child of a scope is. -/
inductive ScopeItem where
  | include
  /-- A block whose content belongs to the scope around it. -/
  | block
  | namespaceBlock
  | classType
  | enum
  | template
  | declaration
  | function
  | typedef
  | aliasType
  | other
deriving DecidableEq, Inhabited, Repr

/-- What a child of a scope is, by its kind. -/
def ScopeItem.ofKind (kind : String) : ScopeItem :=
  if kind == "preproc_include" then .include
  else if isConditional kind || kind == "linkage_specification" || kind == "declaration_list" then
    block
  else if kind == "namespace_definition" then namespaceBlock
  else if isClassKind kind then classType
  else if isEnumKind kind then enum
  else if kind == "template_declaration" then template
  else if kind == "declaration" then declaration
  else if kind == "function_definition" then function
  else if kind == "type_definition" then typedef
  else if kind == "alias_declaration" then aliasType
  else other

/-- The name of the scope that nested namespaces make. -/
def scopeName (namespaces : List String) : String :=
  String.intercalate "::" namespaces

/-- The namespaces that a name opens, one for each part of it. -/
def namespaceParts (name : List Char) : List String :=
  (Text.splitScope name).map fun part => String.ofList (Text.trim part)

/-- A path without the quotation marks or angle brackets around it. -/
def unquotePath (path : List Char) : List Char :=
  let isQuote : Char → Bool := fun c => c == '"' || c == '<' || c == '>'
  Text.dropEndWhile isQuote (path.dropWhile isQuote)

namespace Collector

/-- File an included header. -/
def addInclude (code : List Char) (n : Node) (s : Collector) : Extract Collector := do
  match n.child? "path" with
  | none => return s
  | some path =>
    let path := String.ofList (unquotePath (← textOf code path.node))
    return { s with header := s.header.withDependency path }

/-- File a class definition, folding it into the record of its name if there is one. -/
def insertClass (s : Collector) (c : ClassRecord) : Extract Collector := do
  let c := { c with path := some s.header.path }
  match s.classSlots[c.name]? with
  | some slot =>
    match s.header.classes[slot]? with
    | some first =>
      return { s with header.classes := s.header.classes.set slot (first.extend c) }
    | none => throw (.missingClass slot)
  | none =>
    return { s with
      header.classes := s.header.classes ++ [c]
      classSlots := s.classSlots.insert c.name s.header.classes.length }

/-- File the name of a class that is only declared, unless it is filed already. -/
def addForward (s : Collector) (name : String) : Collector :=
  if s.header.forwards.contains name then s
  else { s with header.forwards := s.header.forwards ++ [name] }

/-- File a class, or the name of one that is only declared. -/
def addClass (code : List Char) (n : Located) (namespaces : List String) (s : Collector) :
    Extract Collector := do
  match ← parseClass code n (scopeName namespaces) with
  | some c => s.insertClass c
  | none =>
    if (n.node.child? "body").isSome then return s
    match n.node.child? "name" with
    | none => return s
    | some name =>
      return s.addForward (qualified (scopeName namespaces) (← nameOf code name.node))

/-- File an enumeration. -/
def addEnum (code : List Char) (n : Located) (namespaces : List String) (s : Collector) :
    Extract Collector := do
  return match ← enumeration? code n (scopeName namespaces) with
    | some e => { s with header.enums := s.header.enums ++ [e] }
    | none => s

/-- File a typedef, if there is one. -/
def addTypedef (typedef : Option Typedef) (s : Collector) : Collector :=
  { s with header.typedefs := s.header.typedefs ++ typedef.toList }

/-- File a class template, folding its class into the record of its name if there is one. -/
def insertTemplate (s : Collector) (c : ClassRecord) (params : List TemplateParam) :
    Extract Collector := do
  let c := { c with path := some s.header.path }
  match s.templateSlots[c.name]? with
  | some slot =>
    match s.header.classTemplates[slot]? with
    | some first =>
      let merged := { first with record := first.record.extend c }
      return { s with header.classTemplates := s.header.classTemplates.set slot merged }
    | none => throw (.missingTemplate slot)
  | none =>
    return { s with
      header.classTemplates := s.header.classTemplates ++ [{ record := c, typeParams := params }]
      templateSlots := s.templateSlots.insert c.name s.header.classTemplates.length }

/-- The class that a child of a template declaration is, or declares as its type. -/
def templatedClass? (n : Located) : Option Located :=
  if isClassKind n.node.kind then some n
  else if n.node.kind == "declaration" then
    (n.node.child? "type").filter fun type => isClassKind type.node.kind
  else none

/-- File the classes of a template declaration. Templates of functions are not bound. -/
def addTemplate (code : List Char) (n : Node) (namespaces : List String) (s : Collector) :
    Extract Collector := do
  let params ← match n.child? "parameters" with
    | some list => templateParams code list.node
    | none => pure []
  (n.located.filterMap templatedClass?).foldlM (fun s n => do
    match ← parseClass code n (scopeName namespaces) with
    | some c => s.insertTemplate c params
    | none => return s) s

/-- Add a function unless one with its key is listed. -/
def addDistinct (functions : List FreeFunction) (f : FreeFunction) : List FreeFunction :=
  if functions.any (·.signatureKey == f.signatureKey) then functions else functions ++ [f]

/-- File a function or operator outside of classes. -/
def insertFunction (s : Collector) (f : FreeFunction) : Collector :=
  if "operator".toList.isPrefixOf f.name.toList then
    { s with header.operators := addDistinct s.header.operators f }
  else { s with header.functions := addDistinct s.header.functions f }

/-- File a function declaration or definition. A qualified name belongs to a member of a class,
    which is set aside. Without a return type it is a macro or a constructor defined outside its
    class, and neither is filed. -/
def addFunction (code : List Char) (n : Located) (namespaces : List String) (s : Collector) :
    Extract Collector := do
  match (n.node.child? "declarator").bind fun d => functionDeclarator? d.node with
  | none => return s
  | some (function, suffix) =>
    match function.child? "declarator" with
    | none => return s
    | some nameNode =>
      if (n.node.child? "type").isNone then return s
      let kind := nameNode.node.kind
      if kind == "qualified_identifier" then
        match Text.splitLastScope? (normalize (← textOf code nameNode.node)) with
        | none => return s
        | some (scope, name) =>
          let m ← callable code n function suffix (String.ofList name)
          let owner := qualified (scopeName namespaces) (String.ofList scope)
          return { s with outOfLine := s.outOfLine ++ [(owner, m)] }
      else if kind == "identifier" || kind == "operator_name" then
        let name := String.ofList (normalize (← textOf code nameNode.node))
        let m ← callable code n function suffix name
        let isInline ← if n.node.kind == "function_definition" then pure true
          else hasSpecifier code n.node "inline"
        return s.insertFunction {
          name := m.name
          fullName := m.fullName
          args := m.args
          returnType := m.returnType
          comment := m.comment
          isInline }
      else return s

/-- File a declaration: the class or enumeration it has as its type, and the function it declares.
    -/
def addDeclaration (code : List Char) (n : Located) (namespaces : List String) (s : Collector) :
    Extract Collector := do
  let s ← match n.node.child? "type" with
    | some type =>
      if isClassKind type.node.kind then s.addClass code type namespaces
      else if isEnumKind type.node.kind then s.addEnum code type namespaces
      else pure s
    | none => pure s
  s.addFunction code n namespaces

/-- Read the children of a scope in order. `before` holds the ones already read, nearest first.
    A namespace without a name is passed over, as nothing outside can refer to it. -/
def visitScope (code : List Char) (namespaces : List String) (before : List Node) :
    List Node → Collector → Extract Collector
  | [], s => return s
  | child :: rest, s => do
    let here : Located := ⟨child, before⟩
    have := child.sizeOf_children_lt
    let s ← match ScopeItem.ofKind child.kind with
      | .include => s.addInclude code child
      | .block => visitScope code namespaces [] child.children s
      | .namespaceBlock =>
        match child.child? "name", h : child.child? "body" with
        | some name, some body =>
          have := Node.sizeOf_lt_of_child? h
          have := body.node.sizeOf_children_lt
          let inner := namespaces ++ namespaceParts (← textOf code name.node)
          visitScope code inner [] body.node.children s
        | _, _ => pure s
      | .classType => s.addClass code here namespaces
      | .enum => s.addEnum code here namespaces
      | .template => s.addTemplate code child namespaces
      | .declaration => s.addDeclaration code here namespaces
      | .function => s.addFunction code here namespaces
      | .typedef => pure (s.addTypedef (← typedef? code here (scopeName namespaces)))
      | .aliasType => pure (s.addTypedef (← alias? code here (scopeName namespaces)))
      | .other => pure s
    visitScope code namespaces (child :: before) rest s
termination_by nodes => sizeOf nodes

/-- The class declares a method of that name, static or not. -/
def declaresMethod (c : ClassRecord) (name : String) : Bool :=
  (c.methods.values ++ c.staticMethods.values).any (·.name == name)

/-- File a member function that was defined outside its class, unless the class declares it or is
    not defined here. -/
def fileOutOfLine (s : Collector) (entry : String × Method) : Extract Collector := do
  match s.classSlots[entry.1]? with
  | none => return s
  | some slot =>
    match s.header.classes[slot]? with
    | none => throw (.missingClass slot)
    | some c =>
      if declaresMethod c entry.2.name || entry.2.hasRvalueArguments then return s
      return { s with header.classes := s.header.classes.set slot (c.addMethod entry.2) }

/-- The record of the header: what was set aside is filed, and a class that is defined here is no
    forward declaration. -/
def finish (s : Collector) : Extract Header := do
  let s ← s.outOfLine.foldlM fileOutOfLine s
  return { s.header with
    forwards := s.header.forwards.filter (!s.classSlots.contains ·) }

end Collector

/-- The record of a header from its source and syntax tree. -/
def extractHeader (code : List Char) (path : Path) (tree : Node) : Extract Header := do
  let start : Collector := { header := Header.ofPath path }
  let s ← Collector.visitScope code [] [] tree.children start
  s.finish

end Extraction

end HeaderBinding
