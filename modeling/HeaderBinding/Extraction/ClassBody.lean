import HeaderBinding.Extraction.Callable
import HeaderBinding.Record.Merge

/-!
# Classes

Reading a class and everything nested in it. Only public members are recorded, except that nested
classes and typedefs are recorded wherever they stand, because signatures may name them.

An access specifier holds until the next one. Blocks of conditional compilation are transparent:
what stands in them is read as if it stood around them, and an access specifier in one of them holds
behind it.

## Main definitions

* `Access`: Who may use a member.
* `MemberItem`: What a child of a class body is.
* `baseClasses`: The public bases.
* `memberFunction`: Filing a public method, constructor, destructor or operator.
* `parseClass`, `visitMembers`: A class, and the members in its body.
-/

namespace HeaderBinding

namespace Extraction

open Syntax

/-- Who may use a member or see a base. -/
inductive Access where
  | isPublic
  | isProtected
  | isPrivate
deriving DecidableEq, Inhabited, Repr

namespace Access

/-- The access that a specifier spells, with or without its colon. -/
def ofKeyword (keyword : List Char) : Access :=
  let word := Text.trim (Text.dropEndWhile (· == ':') (Text.trim keyword))
  if word == "public".toList then isPublic
  else if word == "protected".toList then isProtected
  else isPrivate

/-- The access without a specifier, by the kind of class. -/
def ofKind (kind : String) : Access :=
  if kind == "struct_specifier" then isPublic else isPrivate

end Access

/-- What a child of a class body is. -/
inductive MemberItem where
  | access
  /-- A block of conditional compilation. -/
  | block
  /-- A member that may be a function or a data member. -/
  | member
  | typedef
  | aliasType
  | classType
  | enum
  | other
deriving DecidableEq, Inhabited, Repr

/-- A kind of node that stands for conditional compilation. -/
def isConditional (kind : String) : Bool :=
  ["preproc_ifdef", "preproc_if", "preproc_else", "preproc_elif", "preproc_elifdef"].contains kind

/-- A kind of node that is a class or struct. -/
def isClassKind (kind : String) : Bool :=
  kind == "class_specifier" || kind == "struct_specifier"

/-- A kind of node that is an enumeration. -/
def isEnumKind (kind : String) : Bool :=
  kind == "enum_specifier"

/-- A kind of node that declares functions or data members in a class body. -/
def isMemberKind (kind : String) : Bool :=
  ["field_declaration", "declaration", "function_definition", "inline_method_definition"].contains
    kind

/-- What a child of a class body is, by its kind. -/
def MemberItem.ofKind (kind : String) : MemberItem :=
  if kind == "access_specifier" then access
  else if isConditional kind then block
  else if isMemberKind kind then member
  else if kind == "type_definition" then typedef
  else if kind == "alias_declaration" then aliasType
  else if isClassKind kind then classType
  else if isEnumKind kind then enum
  else other

/-- A kind of node that names a base. -/
def isBaseKind (kind : String) : Bool :=
  kind == "type_identifier" || kind == "qualified_identifier" || kind == "template_type"

/-- One child of a base clause. The access holds up to the next comma. -/
def baseStep (code : List Char) (standard : Access) (state : Access × List String)
    (child : Node) : Extract (Access × List String) := do
  let (access, bases) := state
  if child.kind == "access_specifier" then return (.ofKeyword (← textOf code child), bases)
  if child.kind == "," then return (standard, bases)
  if isBaseKind child.kind && access == .isPublic then
    return (access, bases ++ [String.ofList (normalize (← textOf code child))])
  return (access, bases)

/-- The bases of one clause whose access is public. -/
def clauseBases (code : List Char) (standard : Access) (clause : Node) :
    Extract (List String) := do
  let (_, bases) ← clause.children.foldlM (baseStep code standard) (standard, [])
  return bases

/-- The public bases of a class. -/
def baseClasses (code : List Char) (n : Node) : Extract (List String) := do
  let clauses := n.children.filter (·.kind == "base_class_clause")
  return (← clauses.mapM (clauseBases code (.ofKind n.kind))).flatten

/-- The last part of the name of a class. -/
def bareName (c : ClassRecord) : List Char :=
  Text.lastSegment c.name.toList

/-- File a member that has no return type. Only a constructor means anything without one; whatever
    else looks like this is a macro. -/
def addConstructor (c : ClassRecord) (m : Method) : ClassRecord :=
  if withoutTemplateArgs m.name.toList == bareName c && !m.hasRvalueArguments &&
      !c.constructors.any (·.fullName == m.fullName) then
    c.withConstructor m
  else c

/-- File a member that has a return type. Methods that take rvalue references are not bound. -/
def addReturning (c : ClassRecord) (m : Method) : ClassRecord :=
  let c := if m.isPureVirtual then { c with isAbstract := true } else c
  if "operator".toList.isPrefixOf m.name.toList then { c with operators := c.operators ++ [m] }
  else if m.hasRvalueArguments then c
  else c.addMethod m

/-- File a public member function under what it is. -/
def memberFunction (code : List Char) (declaration : Located) (function : Node)
    (suffix : List Char) (c : ClassRecord) : Extract ClassRecord := do
  match function.child? "declarator" with
  | none => return c
  | some nameNode =>
    if !isCallableName nameNode.node.kind then return c
    let name := normalize (← textOf code nameNode.node)
    let m ← callable code declaration function suffix (String.ofList name)
    if nameNode.node.kind == "destructor_name" || name.head? == some '~' then
      return { c with destructors := c.destructors ++ [{ m with returnType := none }] }
    return if m.returnType.isNone then addConstructor c m else addReturning c m

/-- File a function or data member by its declarator. Of a member that is not public nothing is kept
    but whether it makes the class abstract. -/
def declaredMember (code : List Char) (n : Located) (access : Access) (c : ClassRecord) :
    Extract ClassRecord := do
  match n.node.child? "declarator" with
  | none => return c
  | some declarator =>
    match functionDeclarator? declarator.node with
    | some (function, suffix) =>
      if access == .isPublic then memberFunction code n function suffix c
      else if ← isPureVirtual code n.node function then return { c with isAbstract := true }
      else return c
    | none =>
      if access != .isPublic then return c
      match n.node.child? "type", declaredIdentifier? declarator.node with
      | some type, some name =>
        let field : DataMember := {
          name := ← nameOf code name
          type := spell (← textOf code type.node)
          isStatic := ← hasSpecifier code n.node "static" }
        return { c with fields := c.fields ++ [field] }
      | _, _ => return c

/-- File an enumeration, if it is public. -/
def memberEnum (code : List Char) (n : Located) (access : Access) (c : ClassRecord) :
    Extract ClassRecord := do
  if access != .isPublic then return c
  return match ← enumeration? code n c.name with
    | some e => c.withEnum e
    | none => c

/-- File a nested typedef under its name, if there is one. -/
def memberTypedef (typedef : Option Typedef) (c : ClassRecord) : ClassRecord :=
  match typedef with
  | some t => c.withTypedef t
  | none => c

/-- File a nested class under its name. A second definition is folded into the first. -/
def addInnerClass (c inner : ClassRecord) : ClassRecord :=
  let merged := match c.innerClasses.find? inner.name with
    | some first => first.extend inner
    | none => inner
  { c with innerClasses := c.innerClasses.insert inner.name merged }

mutual

/-- A class with a body. A forward declaration and a specialization are no class of their own. -/
def parseClass (code : List Char) (n : Located) (scope : String) :
    Extract (Option ClassRecord) := do
  match n.node.child? "name" with
  | none => return none
  | some name =>
    if name.node.kind == "template_type" then return none
    match h : n.node.child? "body" with
    | none => return none
    | some body =>
      have := Node.sizeOf_lt_of_child? h
      have := Node.sizeOf_children_lt body.node
      let c : ClassRecord := {
        name := qualified scope (← nameOf code name.node)
        comment := ← docComment code n
        superclasses := ← baseClasses code n.node }
      let (c, _) ← visitMembers code [] body.node.children (c, .ofKind n.node.kind)
      return some c
termination_by (sizeOf n.node, 0)

/-- Read a class inside another. Even one without a body names a nested type. -/
def innerClass (code : List Char) (n : Located) (c : ClassRecord) : Extract ClassRecord := do
  match ← parseClass code n c.name with
  | some inner => return addInnerClass c inner
  | none =>
    match n.node.child? "name" with
    | none => return c
    | some name => return addInnerClass c { name := qualified c.name (← nameOf code name.node) }
termination_by (sizeOf n.node, 1)

/-- The type of a member, which may define a class or an enumeration. -/
def memberType (code : List Char) (n : Located) (access : Access) (c : ClassRecord) :
    Extract ClassRecord :=
  match h : n.node.child? "type" with
  | none => return c
  | some type =>
    have := Node.sizeOf_lt_of_child? h
    if isClassKind type.node.kind then innerClass code type c
    else if isEnumKind type.node.kind then memberEnum code type access c
    else return c
termination_by (sizeOf n.node, 1)

/-- Read the children of a class body in order. `before` holds the ones already read, nearest
    first. -/
def visitMembers (code : List Char) (before : List Node) :
    List Node → ClassRecord × Access → Extract (ClassRecord × Access)
  | [], state => return state
  | child :: rest, (c, access) => do
    let here : Located := ⟨child, before⟩
    have := child.sizeOf_children_lt
    let state ← match MemberItem.ofKind child.kind with
      | .access => pure (c, Access.ofKeyword (← textOf code child))
      | .block => visitMembers code [] child.children (c, access)
      | .member =>
        let c ← memberType code here access c
        pure (← declaredMember code here access c, access)
      | .typedef => pure (memberTypedef (← typedef? code here "") c, access)
      | .aliasType => pure (memberTypedef (← alias? code here "") c, access)
      | .classType => pure (← innerClass code here c, access)
      | .enum => pure (← memberEnum code here access c, access)
      | .other => pure (c, access)
    visitMembers code (child :: before) rest state
termination_by nodes => (sizeOf nodes, 0)

end

end Extraction

end HeaderBinding
