import HeaderBinding.Proofs.Extraction.HeaderScope
import HeaderBinding.Proofs.Extraction.Members

/-!
# Lookalikes

What reading a declaration looks at, and what it does not.

Most of a tree is only ever seen from outside. Of a child that is spelled out, or asked for its
kind, no more matters than its outline: its kind and the part of the source that it covers. Only
declarators are searched, and only the types of declarations are read as classes and enumerations.
So two declarations of the same outlines, with one declarator and with types that are read as the
same, are filed as the same things, whatever else their nodes hold (`SameDeclaration`).

The siblings in front of a node matter for its documentation alone. Where there are no comments,
they can be exchanged for any others.

## Main definitions

* `Node.outline`: What can be seen of a node from outside.
* `Node.withChild`: A node with another child in the place of one.
* `Lookalike`: Two nodes whose children have the same outlines.
* `Commentless`: There are no comments among some siblings.
* `SameType`: Two nodes that are read as the same class or enumeration.
* `SameDeclaration`: Two declarations that are filed as the same things.

## Theorems

* `Node.child?_eq`, `Node.child?_cases_of_map_node`: The child of a field name.
* `lookalike_withChild`: Exchanging a child for one of the same outline.
* `SameType.of_commentless`, `SameDeclaration.of_commentless`: Exchanging the siblings in front.
* `SameDeclaration.memberFilings`, `SameType.memberFilings`: Members that are filed alike.
* `SameDeclaration.fileItem`, `SameType.fileItem`: Items of a scope that are filed alike.
-/

namespace HeaderBinding

namespace Syntax

/-- A node in a list has the ones before it in front, the nearest first. -/
theorem getElem?_locateFrom (before nodes : List Node) (i : Nat) :
    (locateFrom before nodes)[i]? =
      nodes[i]?.map fun node => ⟨node, (nodes.take i).reverse ++ before⟩ := by
  induction nodes generalizing before i with
  | nil => rfl
  | cons node nodes ih =>
      cases i with
      | zero => rfl
      | succ i =>
          rw [locateFrom, List.getElem?_cons_succ, List.getElem?_cons_succ, ih, List.take_succ_cons,
            List.reverse_cons, List.append_assoc, List.singleton_append]

namespace Node

/-- What can be seen of a node from outside: its kind and the part of the source that it covers. -/
def outline (n : Node) : String × Nat × Nat :=
  (n.kind, n.start, n.stop)

/-- The node with another child in the place of one. -/
def withChild (n : Node) (i : Nat) (child : Node) : Node :=
  { n with children := n.children.set i child }

/-- The child of a field name stands at the index of the name, behind the children before it. -/
theorem child?_eq (n : Node) (field : String) :
    n.child? field = (n.fields.lookup field).bind fun i =>
      n.children[i]?.map fun node => ⟨node, (n.children.take i).reverse⟩ := by
  unfold child? located
  refine congrArg _ (funext fun i => ?_)
  rw [getElem?_locateFrom]
  simp only [List.append_nil]

/-- Where a field name means the same node in two others, only what stands in front may differ. -/
theorem child?_cases_of_map_node {n n' : Node} {field : String}
    (h : (n.child? field).map (·.node) = (n'.child? field).map (·.node)) :
    (n.child? field = none ∧ n'.child? field = none) ∨
    ∃ node before before', n.child? field = some ⟨node, before⟩ ∧
      n'.child? field = some ⟨node, before'⟩ := by
  rcases hn : n.child? field with _ | ⟨node, before⟩
  -- A name that means nothing in one node means nothing in the other.
  · rw [hn, Option.map_none, eq_comm, Option.map_eq_none_iff] at h
    exact Or.inl ⟨rfl, h⟩
  · rw [hn, Option.map_some, eq_comm, Option.map_eq_some_iff] at h
    rcases h with ⟨⟨_, before'⟩, hn', rfl⟩
    exact Or.inr ⟨_, before, before', rfl, hn'⟩

section WithChild

variable {n child child' : Node} {i : Nat} {field : String}

/-- The child that a field name means, from its index. -/
theorem child?_of_getElem? (hfield : n.fields.lookup field = some i)
    (hchild : n.children[i]? = some child) :
    n.child? field = some ⟨child, (n.children.take i).reverse⟩ := by
  rw [child?_eq, hfield, Option.bind_some, hchild, Option.map_some]

/-- The exchanged child is found under its field name, behind the same siblings as before. -/
theorem child?_withChild_self (hfield : n.fields.lookup field = some i)
    (hchild : n.children[i]? = some child) :
    (n.withChild i child').child? field = some ⟨child', (n.children.take i).reverse⟩ := by
  have hlt : i < n.children.length := (List.getElem?_eq_some_iff.mp hchild).1
  rw [child?_of_getElem? (n := n.withChild i child') hfield (List.getElem?_set_self hlt)]
  -- The children in front of the exchanged one stay.
  change some (Located.mk child' ((n.children.set i child').take i).reverse) = _
  rw [List.take_set_of_le (Nat.le_refl i)]

/-- The nodes that other field names mean stay. -/
theorem child?_withChild_of_ne (hfield : n.fields.lookup field ≠ some i) :
    ((n.withChild i child').child? field).map (·.node) = (n.child? field).map (·.node) := by
  rw [child?_eq, child?_eq]
  change Option.map _ ((n.fields.lookup field).bind _) = _
  cases hj : n.fields.lookup field with
  | none => rfl
  | some j =>
      -- The name stands for another index, and only one is written to.
      have hne : i ≠ j := fun heq => hfield (hj.trans (congrArg some heq.symm))
      simp only [Option.bind_some, Option.map_map]
      change Option.map _ (n.children.set i child')[j]? = Option.map _ n.children[j]?
      rw [List.getElem?_set_ne hne]
      rfl

end WithChild

end Node

end Syntax

namespace Extraction

open Syntax

section Outlines

variable {code : List Char} {n n' : Node}

/-- The text of a node is told by its outline. -/
theorem textOf_congr (h : n.outline = n'.outline) : textOf code n = textOf code n' := by
  simp only [Node.outline, Prod.mk.injEq] at h
  rw [textOf, h.2.1, h.2.2, textOf]

theorem nameOf_congr (h : n.outline = n'.outline) : nameOf code n = nameOf code n' := by
  rw [nameOf, textOf_congr h, nameOf]

theorem kind_congr (h : n.outline = n'.outline) : n.kind = n'.kind :=
  congrArg Prod.fst h

/-- A search that only looks at outlines. -/
theorem anyM_congr {f : Node → Extract Bool}
    (hf : ∀ a b : Node, a.outline = b.outline → f a = f b) {nodes nodes' : List Node}
    (h : nodes.map Node.outline = nodes'.map Node.outline) : nodes.anyM f = nodes'.anyM f := by
  induction nodes generalizing nodes' with
  | nil =>
      rw [List.map_nil, eq_comm, List.map_eq_nil_iff] at h
      rw [h]
  | cons node nodes ih =>
      rw [List.map_cons, eq_comm, List.map_eq_cons_iff] at h
      rcases h with ⟨node', rest', rfl, hnode, hrest⟩
      rw [List.anyM, List.anyM, hf node node' hnode.symm]
      refine bind_congr fun found => ?_
      rw [ih hrest.symm]

/-- Nodes of the same outlines have the same texts. -/
theorem mapM_textOf_congr {nodes nodes' : List Node}
    (h : nodes.map Node.outline = nodes'.map Node.outline) :
    nodes.mapM (textOf code) = nodes'.mapM (textOf code) := by
  -- Only the ends of a node are needed for its text, so outlines will do.
  have hspelled : ∀ nodes : List Node, nodes.mapM (textOf code) =
      (nodes.map Node.outline).mapM fun o => slice code o.2.1 o.2.2 := by
    intro nodes
    rw [List.mapM_map]
    rfl
  rw [hspelled, hspelled, h]

/-- Two nodes that look alike from outside, and so do their children. -/
structure Lookalike (n n' : Node) : Prop where
  outline : n.outline = n'.outline
  fields : n.fields = n'.fields
  children : n.children.map Node.outline = n'.children.map Node.outline

theorem Lookalike.refl (n : Node) : Lookalike n n :=
  ⟨rfl, rfl, rfl⟩

/-- A child may be exchanged for one of the same outline. -/
theorem lookalike_withChild {child child' : Node} {i : Nat} (hchild : n.children[i]? = some child)
    (houtline : child'.outline = child.outline) : Lookalike n (n.withChild i child') where
  outline := rfl
  fields := rfl
  children := by
    rcases List.getElem?_eq_some_iff.mp hchild with ⟨hlt, rfl⟩
    change _ = (n.children.set i child').map Node.outline
    -- Among the outlines, an entry is set to what it is already.
    have hself : (n.children.map Node.outline).set i (n.children[i]).outline =
        n.children.map Node.outline := by
      rw [← List.getElem_map Node.outline (h := by rwa [List.length_map])]
      exact List.set_getElem_self _
    rw [List.map_set, houtline, hself]

section Children

variable (h : Lookalike n n')

include h

/-- What a field name means looks alike, and so does what stands in front of it. -/
theorem Lookalike.child?_cases (field : String) :
    (n.child? field = none ∧ n'.child? field = none) ∨
    ∃ l l', n.child? field = some l ∧ n'.child? field = some l' ∧
      l.node.outline = l'.node.outline ∧
      l.before.map Node.outline = l'.before.map Node.outline := by
  rw [Node.child?_eq, Node.child?_eq, ← h.fields]
  cases n.fields.lookup field with
  | none => exact Or.inl ⟨rfl, rfl⟩
  | some i =>
      -- One index in both nodes, with the same outlines at it and in front of it.
      have hnode : n.children[i]?.map Node.outline = n'.children[i]?.map Node.outline := by
        rw [← List.getElem?_map, ← List.getElem?_map, h.children]
      have hfront : (n.children.take i).reverse.map Node.outline =
          (n'.children.take i).reverse.map Node.outline := by
        rw [List.map_reverse, List.map_reverse, List.map_take, List.map_take, h.children]
      rw [Option.bind_some, Option.bind_some]
      rcases hi : n.children[i]? with _ | child
      · rw [hi, Option.map_none, eq_comm, Option.map_eq_none_iff] at hnode
        rw [hnode]
        exact Or.inl ⟨rfl, rfl⟩
      · rw [hi, Option.map_some, eq_comm, Option.map_eq_some_iff] at hnode
        rcases hnode with ⟨child', hchild, hsame⟩
        rw [hchild]
        exact Or.inr ⟨_, _, rfl, rfl, hsame.symm, hfront⟩

/-- A field name means something in both nodes or in neither. -/
theorem Lookalike.isSome_child? (field : String) :
    (n.child? field).isSome = (n'.child? field).isSome := by
  rcases h.child?_cases field with ⟨hn, hn'⟩ | ⟨l, l', hn, hn', _⟩
  · rw [hn, hn']
  · rw [hn, hn']
    rfl

/-- A keyword is found by the kind and the text of a child. -/
theorem Lookalike.hasSpecifier (keyword : String) :
    hasSpecifier code n keyword = hasSpecifier code n' keyword := by
  refine anyM_congr (fun a b hab => ?_) h.children
  rw [kind_congr hab, textOf_congr hab]

/-- A return type is made of the texts of the type and of the qualifiers in front of it. -/
theorem Lookalike.returnType? (suffix : List Char) :
    returnType? code n suffix = returnType? code n' suffix := by
  unfold Extraction.returnType?
  rcases h.child?_cases "type" with ⟨hn, hn'⟩ | ⟨type, type', hn, hn', htype, hfront⟩
  · rw [hn, hn']
  · -- Only the qualifiers among the siblings are spelled out, and they are told by their kind.
    have hparts : ∀ l : Located, (l.before.reverse.filter (·.kind == "type_qualifier") ++
        [l.node]).map Node.outline =
        (l.before.map Node.outline).reverse.filter (·.1 == "type_qualifier") ++
          [l.node.outline] := by
      intro l
      rw [← List.map_reverse, List.filter_map, List.map_append, List.map_singleton]
      rfl
    rw [hn, hn', Option.mapM_some, Option.mapM_some]
    dsimp only
    rw [mapM_textOf_congr (hparts type |>.trans ?_)]
    rw [hparts, htype, hfront]

/-- Whether a function is pure is read between its declarator and the end of the declaration. -/
theorem Lookalike.isPureVirtual (function : Node) :
    isPureVirtual code n function = isPureVirtual code n' function := by
  have hstop : n.stop = n'.stop := congrArg (·.2.2) h.outline
  rw [Extraction.isPureVirtual, hstop, Extraction.isPureVirtual]

end Children

end Outlines

section Types

variable {code : List Char} {l l' t t' : Located}

/-- The record of a function, read from two declarations that look and are documented alike. -/
theorem callable_congr (h : Lookalike l.node l'.node)
    (hcomment : docComment code l = docComment code l') (function : Node) (suffix : List Char)
    (name : String) :
    callable code l function suffix name = callable code l' function suffix name := by
  unfold callable
  simp only [h.returnType?, hcomment, h.hasSpecifier, h.isPureVirtual]

variable (code) in
/-- Two nodes that are read as the same type: as the same class or enumeration, if they are one. -/
structure SameType (t t' : Located) : Prop where
  node : Lookalike t.node t'.node
  parse : isClassKind t.node.kind = true →
    ∀ scope, parseClass code t scope = parseClass code t' scope
  enumeration : isEnumKind t.node.kind = true →
    ∀ scope, enumeration? code t scope = enumeration? code t' scope

theorem SameType.refl (t : Located) : SameType code t t :=
  ⟨.refl _, fun _ _ => rfl, fun _ _ => rfl⟩

namespace SameType

variable (h : SameType code t t')

include h

/-- What a typedef takes from its type is a text. -/
theorem aliasedType : aliasedType code t.node = aliasedType code t'.node := by
  unfold Extraction.aliasedType
  rw [h.node.isSome_child?, textOf_congr h.node.outline]
  rcases h.node.child?_cases "name" with ⟨hn, hn'⟩ | ⟨name, name', hn, hn', hname, _⟩
  · rw [hn, hn']
  · simp only [hn, hn', textOf_congr hname]

/-- A nested class is filed alike, with its body or as a name alone. -/
theorem innerFilings (hclass : isClassKind t.node.kind = true) (owner : String) :
    innerFilings code t owner = innerFilings code t' owner := by
  unfold Extraction.innerFilings
  rw [h.parse hclass]
  rcases h.node.child?_cases "name" with ⟨hn, hn'⟩ | ⟨name, name', hn, hn', hname, _⟩
  · rw [hn, hn']
  · simp only [hn, hn', nameOf_congr hname]

theorem enumFilings (henum : isEnumKind t.node.kind = true) (access : Access) (owner : String) :
    enumFilings code t access owner = enumFilings code t' access owner := by
  unfold Extraction.enumFilings
  rw [h.enumeration henum]

theorem addClass (hclass : isClassKind t.node.kind = true) (namespaces : List String)
    (s : Collector) : s.addClass code t namespaces = s.addClass code t' namespaces := by
  unfold Collector.addClass
  rw [h.parse hclass, h.node.isSome_child?]
  rcases h.node.child?_cases "name" with ⟨hn, hn'⟩ | ⟨name, name', hn, hn', hname, _⟩
  · rw [hn, hn']
  · simp only [hn, hn', nameOf_congr hname]

theorem addEnum (henum : isEnumKind t.node.kind = true) (namespaces : List String)
    (s : Collector) : s.addEnum code t namespaces = s.addEnum code t' namespaces := by
  unfold Collector.addEnum
  rw [h.enumeration henum]

end SameType

variable (code) in
/-- Two declarations that are filed as the same things. -/
structure SameDeclaration (l l' : Located) : Prop where
  node : Lookalike l.node l'.node
  comment : docComment code l = docComment code l'
  declarator : (l.node.child? "declarator").map (·.node) =
    (l'.node.child? "declarator").map (·.node)
  type : Option.Rel (SameType code) (l.node.child? "type") (l'.node.child? "type")

namespace SameDeclaration

variable (h : SameDeclaration code l l')

include h

/-- Either both declarations have a type, which is read as the same, or neither has one. -/
theorem type_cases : (l.node.child? "type" = none ∧ l'.node.child? "type" = none) ∨
    ∃ type type', l.node.child? "type" = some type ∧ l'.node.child? "type" = some type' ∧
      SameType code type type' := by
  have htype := h.type
  generalize l.node.child? "type" = found at htype
  generalize l'.node.child? "type" = found' at htype
  cases htype with
  | none => exact Or.inl ⟨rfl, rfl⟩
  | some hsame => exact Or.inr ⟨_, _, rfl, rfl, hsame⟩

/-- The declarator is one node in both, and the types have the same text. -/
theorem typedef? (scope : String) : typedef? code l scope = typedef? code l' scope := by
  unfold Extraction.typedef?
  rcases h.type_cases with ⟨ht, ht'⟩ | ⟨type, type', ht, ht', htype⟩
  · rw [ht, ht']
  -- With a type on both sides, it is left to look for the declarator.
  · rcases Node.child?_cases_of_map_node h.declarator with
      ⟨hd, hd'⟩ | ⟨declarator, before, before', hd, hd'⟩
    · rw [ht, ht', hd, hd']
    · simp only [ht, ht', hd, hd', htype.aliasedType, h.comment]

/-- An alias has a name and a type, and only their texts are asked for. -/
theorem alias? (scope : String) : alias? code l scope = alias? code l' scope := by
  unfold Extraction.alias?
  rcases h.node.child?_cases "name" with ⟨hn, hn'⟩ | ⟨name, name', hn, hn', hname, _⟩
  · rw [hn, hn']
  · rcases h.type_cases with ⟨ht, ht'⟩ | ⟨type, type', ht, ht', htype⟩
    · rw [hn, hn', ht, ht']
    · simp only [hn, hn', ht, ht', nameOf_congr hname, textOf_congr htype.node.outline, h.comment]

/-- What the type of a declaration files: a class, an enumeration or nothing. -/
theorem typeFilings (access : Access) (owner : String) :
    typeFilings code l access owner = typeFilings code l' access owner := by
  unfold Extraction.typeFilings
  rcases h.type_cases with ⟨ht, ht'⟩ | ⟨type, type', ht, ht', htype⟩
  · rw [ht, ht']
  -- Both types are of one kind, which settles how they are read.
  · have hkind : type.node.kind = type'.node.kind := kind_congr htype.node.outline
    simp only [ht, ht', ← hkind]
    by_cases hclass : isClassKind type.node.kind = true
    · rw [if_pos hclass, if_pos hclass, htype.innerFilings hclass]
    · by_cases henum : isEnumKind type.node.kind = true
      · rw [if_neg hclass, if_neg hclass, htype.enumFilings henum]
      · rw [if_neg hclass, if_neg hclass, if_neg henum, if_neg henum]

/-- What the declarator of a declaration files: a function, a field or nothing. -/
theorem declaratorFilings (access : Access) :
    declaratorFilings code l access = declaratorFilings code l' access := by
  -- Of a function, the declarator is the same node and the rest is told by outlines.
  have hfunction : ∀ function suffix, functionFilings code l function suffix =
      functionFilings code l' function suffix := by
    intro function suffix
    unfold functionFilings
    simp only [callable_congr h.node h.comment]
  -- Of a field, the siblings in front of the declarator are not asked for.
  have hfield : ∀ declarator before before',
      fieldFilings code l ⟨declarator, before⟩ = fieldFilings code l' ⟨declarator, before'⟩ := by
    intro declarator before before'
    unfold fieldFilings
    rcases h.type_cases with ⟨ht, ht'⟩ | ⟨type, type', ht, ht', htype⟩
    · rw [ht, ht']
    · rw [ht, ht']
      cases declaredIdentifier? declarator with
      | none => rfl
      | some name => simp only [textOf_congr htype.node.outline, h.node.hasSpecifier]
  unfold Extraction.declaratorFilings
  rcases Node.child?_cases_of_map_node h.declarator with
    ⟨hd, hd'⟩ | ⟨declarator, before, before', hd, hd'⟩
  · rw [hd, hd']
  · simp only [hd, hd', hfunction, hfield declarator before before', h.node.isPureVirtual]

/-- A function at namespace scope is read off the declarator and what is around it. -/
theorem addFunction (namespaces : List String) (s : Collector) :
    s.addFunction code l namespaces = s.addFunction code l' namespaces := by
  unfold Collector.addFunction
  rcases Node.child?_cases_of_map_node h.declarator with
    ⟨hd, hd'⟩ | ⟨declarator, before, before', hd, hd'⟩
  · rw [hd, hd']
    rfl
  -- Of the type it only matters whether there is one.
  · have htype : (l.node.child? "type").isNone = (l'.node.child? "type").isNone := by
      rw [← Option.not_isSome, ← Option.not_isSome, h.node.isSome_child?]
    simp only [hd, hd', Option.bind_some, htype, callable_congr h.node h.comment,
      kind_congr h.node.outline, h.node.hasSpecifier]

/-- A declaration at namespace scope files a class, an enumeration or a function. -/
theorem addDeclaration (namespaces : List String) (s : Collector) :
    s.addDeclaration code l namespaces = s.addDeclaration code l' namespaces := by
  unfold Collector.addDeclaration
  simp only [h.addFunction]
  rcases h.type_cases with ⟨ht, ht'⟩ | ⟨type, type', ht, ht', htype⟩
  · rw [ht, ht']
  -- As in a class body, the kind of the type settles how it is read.
  · have hkind : type.node.kind = type'.node.kind := kind_congr htype.node.outline
    simp only [ht, ht', ← hkind]
    by_cases hclass : isClassKind type.node.kind = true
    · rw [if_pos hclass, if_pos hclass, htype.addClass hclass]
    · by_cases henum : isEnumKind type.node.kind = true
      · rw [if_neg hclass, if_neg hclass, htype.addEnum henum]
      · rw [if_neg hclass, if_neg hclass, if_neg henum, if_neg henum]

end SameDeclaration

end Types

section Classes

variable {code : List Char} {l l' : Located} {scope : String}

/-- Reading a class that has a name and a body. -/
theorem parseClass_of_body {name body : Located} (hname : l.node.child? "name" = some name)
    (hbody : l.node.child? "body" = some body) :
    parseClass code l scope = if name.node.kind == "template_type" then .ok none else do
      let spelling ← nameOf code name.node
      let comment ← docComment code l
      let superclasses ← baseClasses code l.node
      let start : ClassRecord := { name := qualified scope spelling, comment, superclasses }
      let (c, _) ← visitMembers code [] body.node.children (start, .ofKind l.node.kind)
      return some c := by
  rw [parseClass]
  simp only [hname]
  -- The name and the body that are looked up are the ones that are there.
  split
  · rfl
  · split
    · next hnone => exact absurd (hnone.symm.trans hbody) (Option.some_ne_none body).symm
    · next found hfound =>
      obtain rfl := Option.some.inj (hfound.symm.trans hbody)
      rfl

/-- Without a name or a body there is no class to read. -/
theorem parseClass_of_none
    (h : l.node.child? "name" = none ∨ l.node.child? "body" = none) :
    parseClass code l scope = .ok none := by
  rw [parseClass]
  split
  · rfl
  · next name hname =>
    have hbody := h.resolve_left fun hnone => Option.some_ne_none name (hname.symm.trans hnone)
    split
    · rfl
    · split
      · rfl
      · next body hsome => exact absurd (hsome.symm.trans hbody) (Option.some_ne_none body)

/-- Two classes are read as the same if they have the same bases and their bodies are read as the
    same. -/
theorem parseClass_congr (hnode : Lookalike l.node l'.node)
    (hcomment : docComment code l = docComment code l')
    (hbases : baseClasses code l.node = baseClasses code l'.node)
    (hbody : ∀ body body', l.node.child? "body" = some body → l'.node.child? "body" = some body' →
      ∀ state, visitMembers code [] body.node.children state =
        visitMembers code [] body'.node.children state) :
    parseClass code l scope = parseClass code l' scope := by
  rcases hnode.child?_cases "name" with ⟨hn, hn'⟩ | ⟨name, name', hn, hn', hname, _⟩
  · rw [parseClass_of_none (Or.inl hn), parseClass_of_none (Or.inl hn')]
  · rcases hnode.child?_cases "body" with ⟨hb, hb'⟩ | ⟨body, body', hb, hb', _⟩
    · rw [parseClass_of_none (Or.inr hb), parseClass_of_none (Or.inr hb')]
    -- With a name and a body on both sides, everything that is read is the same.
    · rw [parseClass_of_body hn hb, parseClass_of_body hn' hb', kind_congr hname,
        nameOf_congr hname, hcomment, hbases, kind_congr hnode.outline]
      simp only [hbody body body' hb hb']

end Classes

section Comments

variable {code : List Char} {n : Node} {before before' : List Node}

/-- There are no comments among some siblings. -/
def Commentless (nodes : List Node) : Prop :=
  ∀ node ∈ nodes, node.kind ≠ "comment"

theorem commentless_nil : Commentless [] :=
  fun _ hnode => absurd hnode List.not_mem_nil

/-- Without comments in front of it a node is not documented. -/
theorem docComment_of_commentless (h : Commentless before) :
    docComment code ⟨n, before⟩ = .ok none := by
  -- Comments are gathered from the nearest sibling on, and that is none.
  have hnone : before.takeWhile (·.kind == "comment") = [] := by
    cases before with
    | nil => rfl
    | cons node before =>
        have hfirst := h node List.mem_cons_self
        rw [List.takeWhile_cons, if_neg fun hcomment => hfirst (beq_iff_eq.mp hcomment)]
  unfold docComment
  simp only [hnone]
  rfl

variable (h : Commentless before) (h' : Commentless before')

include h h'

/-- Without comments the siblings in front of a node do not matter. -/
theorem docComment_congr {n' : Node} :
    docComment code ⟨n, before⟩ = docComment code ⟨n', before'⟩ := by
  rw [docComment_of_commentless h, docComment_of_commentless h']

/-- A type is read as the same behind any siblings without comments. -/
theorem SameType.of_commentless : SameType code ⟨n, before⟩ ⟨n, before'⟩ where
  node := .refl n
  parse := by
    intro _ scope
    -- The node is one, and so its bases and its body are.
    refine parseClass_congr (.refl n) (docComment_congr h h') rfl ?_
    intro body body' hbody hbody' state
    obtain rfl := Option.some.inj (hbody.symm.trans hbody')
    rfl
  enumeration := by
    intro _ scope
    have hcomment : docComment code ⟨n, before⟩ = docComment code ⟨n, before'⟩ :=
      docComment_congr h h'
    unfold enumeration?
    simp only [hcomment]

/-- A declaration is filed as the same things behind any siblings without comments. -/
theorem SameDeclaration.of_commentless : SameDeclaration code ⟨n, before⟩ ⟨n, before'⟩ where
  node := .refl n
  comment := docComment_congr h h'
  declarator := rfl
  type := by
    dsimp only
    cases n.child? "type" with
    | none => exact .none
    | some type => exact .some (.refl type)

end Comments

section Kinds

/-- A child of a class body that is read as one declaration, or not at all. -/
def MemberItem.isSingle : MemberItem → Bool
  | member | typedef | aliasType | other => true
  | _ => false

/-- A child of a scope that is read as one declaration, or not at all. -/
def ScopeItem.isSingle : ScopeItem → Bool
  | declaration | function | typedef | aliasType | other => true
  | _ => false

variable {kind : String}

/-- Classes are of two kinds. -/
theorem isClassKind_cases (h : isClassKind kind = true) :
    kind = "class_specifier" ∨ kind = "struct_specifier" := by
  unfold isClassKind at h
  rwa [Bool.or_eq_true, beq_iff_eq, beq_iff_eq] at h

/-- The kinds of classes are one case among the kinds of members. -/
theorem MemberItem.ofKind_eq_classType_iff :
    MemberItem.ofKind kind = .classType ↔ isClassKind kind = true := by
  refine ⟨fun h => ?_, fun h => ?_⟩
  · unfold MemberItem.ofKind at h
    grind
  · rcases isClassKind_cases h with rfl | rfl
    · rfl
    · rfl

/-- They are one case among the kinds of items of a scope, too. -/
theorem ScopeItem.ofKind_eq_classType_iff :
    ScopeItem.ofKind kind = .classType ↔ isClassKind kind = true := by
  refine ⟨fun h => ?_, fun h => ?_⟩
  · unfold ScopeItem.ofKind at h
    grind
  · rcases isClassKind_cases h with rfl | rfl
    · rfl
    · rfl

theorem MemberItem.ofKind_eq_enum (h : MemberItem.ofKind kind = .enum) :
    isEnumKind kind = true := by
  unfold MemberItem.ofKind at h
  grind

theorem ScopeItem.ofKind_eq_enum (h : ScopeItem.ofKind kind = .enum) : isEnumKind kind = true := by
  unfold ScopeItem.ofKind at h
  grind

end Kinds

section Filing

variable {code : List Char} {l l' : Located}

/-- Members that are declared alike are filed alike. -/
theorem SameDeclaration.memberFilings (h : SameDeclaration code l l')
    (hkind : (MemberItem.ofKind l.node.kind).isSingle = true) (access : Access) (owner : String) :
    memberFilings code l access owner = memberFilings code l' access owner := by
  unfold Extraction.memberFilings
  rw [← kind_congr h.node.outline]
  cases hitem : MemberItem.ofKind l.node.kind with
  | member => simp only [h.typeFilings, h.declaratorFilings]
  | typedef => simp only [h.typedef?]
  | aliasType => simp only [h.alias?]
  | other => rfl
  -- The other members are not read as one declaration.
  | _ => simp only [hitem, MemberItem.isSingle, Bool.false_eq_true] at hkind

/-- Classes and enumerations in a class body are filed alike if they are read as the same. -/
theorem SameType.memberFilings (h : SameType code l l')
    (hkind : MemberItem.ofKind l.node.kind = .classType ∨ MemberItem.ofKind l.node.kind = .enum)
    (access : Access) (owner : String) :
    memberFilings code l access owner = memberFilings code l' access owner := by
  unfold Extraction.memberFilings
  rw [← kind_congr h.node.outline]
  rcases hkind with hkind | hkind
  · simp only [hkind]
    exact h.innerFilings (MemberItem.ofKind_eq_classType_iff.mp hkind) owner
  · simp only [hkind]
    exact h.enumFilings (MemberItem.ofKind_eq_enum hkind) access owner

/-- Items that are declared alike are filed alike. -/
theorem SameDeclaration.fileItem (h : SameDeclaration code l l')
    (hkind : (ScopeItem.ofKind l.node.kind).isSingle = true) (namespaces : List String)
    (s : Collector) : fileItem code l namespaces s = fileItem code l' namespaces s := by
  unfold Extraction.fileItem
  rw [← kind_congr h.node.outline]
  cases hitem : ScopeItem.ofKind l.node.kind with
  | declaration => exact h.addDeclaration namespaces s
  | function => exact h.addFunction namespaces s
  | typedef => simp only [h.typedef?]
  | aliasType => simp only [h.alias?]
  | other => rfl
  -- The other items are not read as one declaration.
  | _ => simp only [hitem, ScopeItem.isSingle, Bool.false_eq_true] at hkind

/-- Classes and enumerations in a scope are filed alike if they are read as the same. -/
theorem SameType.fileItem (h : SameType code l l')
    (hkind : ScopeItem.ofKind l.node.kind = .classType ∨ ScopeItem.ofKind l.node.kind = .enum)
    (namespaces : List String) (s : Collector) :
    fileItem code l namespaces s = fileItem code l' namespaces s := by
  unfold Extraction.fileItem
  rw [← kind_congr h.node.outline]
  rcases hkind with hkind | hkind
  · simp only [hkind]
    exact h.addClass (ScopeItem.ofKind_eq_classType_iff.mp hkind) namespaces s
  · simp only [hkind]
    exact h.addEnum (ScopeItem.ofKind_eq_enum hkind) namespaces s

variable {n : Node} {before before' : List Node} (h : Commentless before)
  (h' : Commentless before')

include h h'

/-- Without comments a member is filed alike behind any siblings. -/
theorem memberFilings_of_commentless (access : Access) (owner : String) :
    memberFilings code ⟨n, before⟩ access owner = memberFilings code ⟨n, before'⟩ access owner := by
  have hdeclaration : SameDeclaration code ⟨n, before⟩ ⟨n, before'⟩ := .of_commentless h h'
  have htype : SameType code ⟨n, before⟩ ⟨n, before'⟩ := .of_commentless h h'
  cases hkind : MemberItem.ofKind n.kind with
  | member | typedef | aliasType =>
      exact hdeclaration.memberFilings (by rw [hkind]; rfl) access owner
  | classType => exact htype.memberFilings (Or.inl hkind) access owner
  | enum => exact htype.memberFilings (Or.inr hkind) access owner
  -- These file nothing by themselves.
  | access | block | other =>
      unfold memberFilings
      rw [hkind]

/-- Without comments an item of a scope is filed alike behind any siblings. -/
theorem fileItem_of_commentless (namespaces : List String) (s : Collector) :
    fileItem code ⟨n, before⟩ namespaces s = fileItem code ⟨n, before'⟩ namespaces s := by
  have hdeclaration : SameDeclaration code ⟨n, before⟩ ⟨n, before'⟩ := .of_commentless h h'
  have htype : SameType code ⟨n, before⟩ ⟨n, before'⟩ := .of_commentless h h'
  cases hkind : ScopeItem.ofKind n.kind with
  | declaration | function | typedef | aliasType =>
      exact hdeclaration.fileItem (by rw [hkind]; rfl) namespaces s
  | classType => exact htype.fileItem (Or.inl hkind) namespaces s
  | enum => exact htype.fileItem (Or.inr hkind) namespaces s
  -- These are read without a look at what is in front.
  | «include» | template | block | namespaceBlock | other =>
      unfold fileItem
      rw [hkind]

end Filing

end Extraction

end HeaderBinding
