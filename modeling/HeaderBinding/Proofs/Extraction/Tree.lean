import HeaderBinding.Extraction.HeaderScope

/-!
# What a Tree Declares

The declarations of a header as they stand in its syntax tree, apart from any record of them.

A class body is a list of members, each under the access in force where it stands, and a header is a
list of items, each in the namespaces around it. Both lists are written out flat here. Blocks of
conditional compilation, linkage blocks, namespaces and access specifiers are gone, and every other
node of a body or a scope is left, in order.

From the two lists it can be said which classes a header defines, at any depth, which functions the
bodies of a class declare and under which access, and which functions are defined outside of their
class.

## Main definitions

* `leaf`: A node without children.
* `spelled`: The source that a node covers.
* `sections`, `bodyMembers`: The members of a class body with their access.
* `scopeItems`: The items of a scope with their namespaces.
* `functionName?`, `outOfLineName?`: The function that a member or an item names.
* `DefinesClass`: A node defines a class of some name, in a namespace or in another class.
* `Declares`: A body of a class declares a function under some access.
* `DefinesOutOfLine`: A function of a class is defined outside of it.

## Theorems

* `spelled_eq`: Reading a part of the source that is there.
* `sizeOf_lt_of_mem_bodyMembers`: The members of a class are smaller than the class.
-/

namespace HeaderBinding

namespace Extraction

open Syntax

/-- A node without children. -/
def leaf (kind : String) (named : Bool) (start stop : Nat) : Node :=
  { kind, named, start, stop, fields := [], children := [] }

/-- The size of a list counts its end once, and so do two lists together but for one. -/
theorem sizeOf_append (nodes rest : List Node) :
    sizeOf (nodes ++ rest) + 1 = sizeOf nodes + sizeOf rest := by
  induction nodes with
  | nil =>
      rw [List.nil_append, List.nil.sizeOf_spec, Nat.add_comm]
  | cons node nodes ih =>
      rw [List.cons_append, List.cons.sizeOf_spec, List.cons.sizeOf_spec]
      omega

section

variable (code : List Char)

/-- The source that a node covers, or nothing where there is no such part of it. -/
def spelled (n : Node) : List Char :=
  (Text.slice? code n.start n.stop).getD []

/-- The members in a class body with the access in force where they stand. An access specifier in a
    block of conditional compilation holds behind the block. -/
def sections (access : Access) : List Node → List (Access × Node)
  | [] => []
  | child :: rest =>
    match MemberItem.ofKind child.kind with
    | .access => sections (.ofKeyword (spelled code child)) rest
    | .block => sections access (child.children ++ rest)
    | _ => (access, child) :: sections access rest
termination_by nodes => sizeOf nodes
decreasing_by
  · simp only [List.cons.sizeOf_spec]
    omega
  · have := child.sizeOf_children_lt
    have := sizeOf_append child.children rest
    simp only [List.cons.sizeOf_spec]
    omega
  · simp only [List.cons.sizeOf_spec]
    omega

/-- The members in the body of a class, if it has one. -/
def bodyMembers (n : Node) : List (Access × Node) :=
  match n.child? "body" with
  | some body => sections code (.ofKind n.kind) body.node.children
  | none => []

/-- The items of a scope with the namespaces around them. -/
def scopeItems (namespaces : List String) : List Node → List (List String × Node)
  | [] => []
  | child :: rest =>
    have := child.sizeOf_children_lt
    match ScopeItem.ofKind child.kind with
    | .block => scopeItems namespaces child.children ++ scopeItems namespaces rest
    | .namespaceBlock =>
      match child.child? "name", h : child.child? "body" with
      | some name, some body =>
        have := Node.sizeOf_lt_of_child? h
        have := body.node.sizeOf_children_lt
        scopeItems (namespaces ++ namespaceParts (spelled code name.node)) body.node.children ++
          scopeItems namespaces rest
      | _, _ => scopeItems namespaces rest
    | _ => (namespaces, child) :: scopeItems namespaces rest
termination_by nodes => sizeOf nodes
decreasing_by all_goals (simp only [List.cons.sizeOf_spec]; omega)

/-- The function that a declaration declares, without pointers and references around it. -/
def declaredFunction? (n : Node) : Option Node :=
  ((n.child? "declarator").bind fun d => functionDeclarator? d.node).map (·.1)

/-- The name of the function that a member of a class body declares. A function that is not named
    directly is no member function. -/
def functionName? (item : Node) : Option String :=
  (declaredFunction? item).bind fun function =>
    ((function.child? "declarator").filter (isCallableName ·.node.kind)).map fun name =>
      String.ofList (normalize (spelled code name.node))

/-- The class and the name of the function that an item of a scope defines outside of its class. -/
def outOfLineName? (item : Node) : Option (List Char × List Char) :=
  (declaredFunction? item).bind fun function =>
    ((function.child? "declarator").filter (·.node.kind == "qualified_identifier")).bind fun name =>
      Text.splitLastScope? (normalize (spelled code name.node))

/-- The name of a class with a body. A specialization is no class of its own. -/
def definedName? (scope : String) (n : Node) : Option String :=
  match n.child? "name", n.child? "body" with
  | some name, some _ =>
    if name.node.kind == "template_type" then none
    else some (qualified scope (String.ofList (spelled code name.node)))
  | _, _ => none

end

/-- The class that an item of a class body is, or has as its type. -/
def nestedClass? (item : Node) : Option Node :=
  match MemberItem.ofKind item.kind with
  | .classType => some item
  | .member => ((item.child? "type").map (·.node)).filter (isClassKind ·.kind)
  | _ => none

/-- The classes that an item of a scope is, has as its type or makes a template of. -/
def itemClasses (item : Node) : List Node :=
  match ScopeItem.ofKind item.kind with
  | .classType => [item]
  | .declaration => (((item.child? "type").map (·.node)).filter (isClassKind ·.kind)).toList
  | .template => (item.located.filterMap Collector.templatedClass?).map (·.node)
  | _ => []

section

variable (code : List Char) (tree : Node)

/-- A node defines a class of some name. -/
inductive DefinesClass : String → Node → Prop
  | outer (namespaces : List String) (item n : Node) (name : String)
      (hitem : (namespaces, item) ∈ scopeItems code [] tree.children) (hn : n ∈ itemClasses item)
      (hname : definedName? code (scopeName namespaces) n = some name) : DefinesClass name n
  | nested (owner : String) (n item inner : Node) (access : Access) (name : String)
      (hn : DefinesClass owner n) (hitem : (access, item) ∈ bodyMembers code n)
      (hinner : nestedClass? item = some inner)
      (hname : definedName? code owner inner = some name) : DefinesClass name inner

/-- A body of a class declares a function under some access. -/
def Declares (access : Access) (owner name : String) : Prop :=
  ∃ n item, DefinesClass code tree owner n ∧ (access, item) ∈ bodyMembers code n ∧
    functionName? code item = some name

/-- A function of a class is defined outside of the class. -/
def DefinesOutOfLine (owner name : String) : Prop :=
  ∃ namespaces item, (namespaces, item) ∈ scopeItems code [] tree.children ∧
    ∃ parts, outOfLineName? code item = some parts ∧
      owner = qualified (scopeName namespaces) (String.ofList parts.1) ∧
      name = String.ofList parts.2

variable {code} {tree}

/-- A part of the source that could be read is what is spelled. -/
theorem spelled_eq {n : Node} {text : List Char} (h : textOf code n = .ok text) :
    spelled code n = text := by
  unfold textOf slice at h
  unfold spelled
  cases hslice : Text.slice? code n.start n.stop with
  | none =>
      rw [hslice] at h
      exact absurd h (by simp only [reduceCtorEq, not_false_eq_true])
  | some found =>
      rw [hslice] at h
      exact Except.ok.inj h

/-- A child of a class body that is neither a specifier nor a block is a member. -/
theorem sections_cons_of_member {child : Node} (hspecifier : MemberItem.ofKind child.kind ≠ .access)
    (hblock : MemberItem.ofKind child.kind ≠ .block) (access : Access) (rest : List Node) :
    sections code access (child :: rest) = (access, child) :: sections code access rest := by
  cases hkind : MemberItem.ofKind child.kind with
  | access => exact absurd hkind hspecifier
  | block => exact absurd hkind hblock
  | _ => rw [sections, hkind]

/-- A child of a scope that opens no scope is an item. -/
theorem scopeItems_cons_of_item {child : Node} (hblock : ScopeItem.ofKind child.kind ≠ .block)
    (hnamespace : ScopeItem.ofKind child.kind ≠ .namespaceBlock) (namespaces : List String)
    (rest : List Node) :
    scopeItems code namespaces (child :: rest) =
      (namespaces, child) :: scopeItems code namespaces rest := by
  cases hkind : ScopeItem.ofKind child.kind with
  | block => exact absurd hkind hblock
  | namespaceBlock => exact absurd hkind hnamespace
  | _ => rw [scopeItems, hkind]

/-- A namespace with a name is a scope inside the scope. -/
theorem scopeItems_cons_of_namespace {child : Node} {name body : Located}
    (hkind : ScopeItem.ofKind child.kind = .namespaceBlock)
    (hname : child.child? "name" = some name) (hbody : child.child? "body" = some body)
    (namespaces : List String) (rest : List Node) :
    scopeItems code namespaces (child :: rest) =
      scopeItems code (namespaces ++ namespaceParts (spelled code name.node)) body.node.children ++
        scopeItems code namespaces rest := by
  rw [scopeItems, hkind]
  grind

/-- The members of a body are smaller than the body. -/
theorem sizeOf_lt_of_mem_sections (access : Access) (nodes : List Node) (entry : Access × Node)
    (h : entry ∈ sections code access nodes) : sizeOf entry.2 < sizeOf nodes := by
  fun_induction sections code access nodes with
  | case1 access => exact absurd h List.not_mem_nil
  | case2 access child rest _ ih =>
      rw [List.cons.sizeOf_spec]
      have := ih h
      omega
  -- The children of a block are put in front of the rest.
  | case3 access child rest _ ih =>
      have := child.sizeOf_children_lt
      have := sizeOf_append child.children rest
      rw [List.cons.sizeOf_spec]
      have := ih h
      omega
  -- The member is this child or one of the rest.
  | case4 access child rest _ _ ih =>
      rw [List.cons.sizeOf_spec]
      rcases List.mem_cons.mp h with rfl | hrest
      · change sizeOf child < 1 + sizeOf child + sizeOf rest
        omega
      · have := ih hrest
        omega

/-- The members of a class are smaller than the class. -/
theorem sizeOf_lt_of_mem_bodyMembers (n : Node) (entry : Access × Node)
    (h : entry ∈ bodyMembers code n) : sizeOf entry.2 < sizeOf n := by
  unfold bodyMembers at h
  split at h
  · next body hbody =>
    have := sizeOf_lt_of_mem_sections _ _ entry h
    have := body.node.sizeOf_children_lt
    have := Node.sizeOf_lt_of_child? hbody
    omega
  · exact absurd h List.not_mem_nil

/-- A nested class is the item itself or a part of it. -/
theorem sizeOf_le_of_nestedClass? (item inner : Node) (h : nestedClass? item = some inner) :
    sizeOf inner ≤ sizeOf item := by
  unfold nestedClass? at h
  split at h
  · exact Nat.le_of_eq (congrArg sizeOf (Option.some.inj h).symm)
  · rw [Option.filter_eq_some_iff, Option.map_eq_some_iff] at h
    rcases h with ⟨⟨type, htype, rfl⟩, _⟩
    exact Nat.le_of_lt (Node.sizeOf_lt_of_child? htype)
  · exact absurd h (by simp only [reduceCtorEq, not_false_eq_true])

end

end Extraction

end HeaderBinding
