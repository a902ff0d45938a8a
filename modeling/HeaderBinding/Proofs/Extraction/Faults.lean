import HeaderBinding.Proofs.Extraction.ClassBody
import Mathlib.Logic.Relation

/-!
# Faults of Reading

What can go wrong while a tree is read. Every reader asks for parts of the source and does nothing
else that can fail, so whatever may come of those parts may come of the reader, and nothing besides.

Few kinds of parts are asked for. One is a whole node. Others lie in front of or behind something
inside a node, and the last are the two parts of a parameter without its name. `Readable` says what
may come of each of them for the nodes of some kind, which the nodes inside are of as well. The
readers are gone through once, for any such kind of node.

## Main definitions

* `FaultsOnly`: A computation that can go wrong in some ways only.
* `Within`: A node somewhere in another.
* `Readable`: What may come of the parts that are asked for.
* `Located.Fits`: A node with its siblings, all of a kind.

## Theorems

* `FaultsOnly.bind`, `FaultsOnly.mapM`, `FaultsOnly.foldlM`: Computations made of others.
* `readable_badSlice`: Of any tree, parts that do not exist are all that may come.
* `Readable.parseClass`: Reading a class.
-/

namespace HeaderBinding

namespace Extraction

open Syntax

/-- Whatever goes wrong is one of the faults that are allowed. -/
def FaultsOnly {α : Type} (allowed : Fault → Prop) (x : Extract α) : Prop :=
  ∀ fault, x = .error fault → allowed fault

namespace FaultsOnly

variable {α β : Type} {allowed : Fault → Prop}

/-- A result that is already there. -/
theorem pure (a : α) : FaultsOnly allowed (Pure.pure a) :=
  fun _ h => absurd h (by simp only [Pure.pure, Except.pure, reduceCtorEq, not_false_eq_true])

/-- One computation after another. The second only runs on a result of the first. -/
theorem bind {x : Extract α} {f : α → Extract β} (hx : FaultsOnly allowed x)
    (hf : ∀ a, x = .ok a → FaultsOnly allowed (f a)) : FaultsOnly allowed (x >>= f) := by
  intro fault h
  cases x with
  | error e =>
      -- The second computation has not run yet.
      obtain rfl : e = fault := Except.error.inj h
      exact hx e rfl
  | ok a => exact hf a rfl fault h

/-- A computation whose result is only looked at. -/
theorem bind_pure {x : Extract α} (hx : FaultsOnly allowed x) (f : α → β) :
    FaultsOnly allowed (x >>= fun a => Pure.pure (f a)) :=
  hx.bind fun _ _ => pure _

/-- One computation for each item. By induction on the items, up to the first that goes wrong. -/
theorem mapM {f : α → Extract β} {items : List α} (hf : ∀ a ∈ items, FaultsOnly allowed (f a)) :
    FaultsOnly allowed (items.mapM f) := by
  induction items with
  | nil => exact pure []
  | cons a items ih =>
      rw [List.forall_mem_cons] at hf
      rw [List.mapM_cons]
      exact hf.1.bind fun b _ => (ih hf.2).bind_pure _

theorem collect {f : α → Extract (Option β)} {items : List α}
    (hf : ∀ a ∈ items, FaultsOnly allowed (f a)) :
    FaultsOnly allowed (Extraction.collect f items) :=
  (mapM hf).bind_pure _

theorem optionMapM {f : α → Extract β} {item : Option α}
    (hf : ∀ a, item = some a → FaultsOnly allowed (f a)) : FaultsOnly allowed (item.mapM f) := by
  cases item with
  | none => exact pure none
  | some a =>
      rw [Option.mapM_some, map_eq_pure_bind]
      exact (hf a rfl).bind_pure _

/-- A search goes on until it is successful, so what comes of it comes of one of the items. -/
theorem anyM {f : α → Extract Bool} {items : List α}
    (hf : ∀ a ∈ items, FaultsOnly allowed (f a)) : FaultsOnly allowed (items.anyM f) := by
  induction items with
  | nil => exact pure false
  | cons a items ih =>
      rw [List.forall_mem_cons] at hf
      rw [List.anyM]
      refine hf.1.bind fun b _ => ?_
      -- Only where nothing has been found does the search go on.
      cases b with
      | true => exact pure true
      | false => exact ih hf.2

/-- A fold may go wrong at any of its steps, whatever it has gathered by then. -/
theorem foldlM {f : β → α → Extract β} {items : List α} {start : β}
    (hf : ∀ a ∈ items, ∀ b, FaultsOnly allowed (f b a)) :
    FaultsOnly allowed (items.foldlM f start) := by
  induction items generalizing start with
  | nil => exact pure start
  | cons a items ih =>
      rw [List.forall_mem_cons] at hf
      rw [List.foldlM_cons]
      exact (hf.1 start).bind fun _ _ => ih hf.2

end FaultsOnly

/-- A node somewhere in another, or the other itself. -/
def Within : Node → Node → Prop :=
  Relation.ReflTransGen fun outer inner => inner ∈ outer.children

theorem within_of_child? {n : Node} {field : String} {l : Located}
    (h : n.child? field = some l) : Within n l.node :=
  .single (Node.mem_children_of_child? h)

/-- The name that a declarator introduces stands in it. -/
theorem within_of_declaredIdentifier? {n name : Node} (h : declaredIdentifier? n = some name) :
    Within n name := by
  induction hsize : sizeOf n using Nat.strongRecOn generalizing n with
  | ind size ih =>
      subst hsize
      rw [declaredIdentifier?] at h
      split at h
      · exact Option.some.inj h ▸ .refl
      · split at h
        -- The declarator has a declarator of its own.
        · next inner hinner =>
          exact (within_of_child? hinner).trans (ih _ (Node.sizeOf_lt_of_child? hinner) h rfl)
        -- The name is looked for in one child after the other.
        · rcases List.exists_of_findSome?_eq_some h with ⟨⟨child, hchild⟩, _, hfound⟩
          dsimp only at hfound
          split at hfound
          · exact .head hchild (ih _ (Node.sizeOf_lt_of_mem_children hchild) hfound rfl)
          · exact absurd hfound (by simp only [reduceCtorEq, not_false_eq_true])

/-- The function that a declarator declares stands in it. -/
theorem within_of_functionDeclarator? {n function : Node} {suffix : List Char}
    (h : functionDeclarator? n = some (function, suffix)) : Within n function := by
  induction hsize : sizeOf n using Nat.strongRecOn generalizing n suffix with
  | ind size ih =>
      subst hsize
      rw [functionDeclarator?] at h
      split at h
      -- The declarator is that of the function.
      · cases h
        exact .refl
      -- Behind a pointer or a reference there is one further in.
      · split at h
        · split at h
          · next inner hinner =>
            simp only [Option.map_eq_some_iff, Prod.mk.injEq] at h
            rcases h with ⟨⟨f, s⟩, hf, rfl, _⟩
            exact (within_of_child? hinner).trans (ih _ (Node.sizeOf_lt_of_child? hinner) hf rfl)
          · exact absurd h (by simp only [reduceCtorEq, not_false_eq_true])
        · split at h
          · dsimp only at h
            split at h
            · next inner hinner =>
              simp only [Option.map_eq_some_iff, Prod.mk.injEq] at h
              rcases h with ⟨⟨f, s⟩, hf, rfl, _⟩
              exact .head (Node.mem_children_of_rightmostNamed? hinner)
                (ih _ (Node.sizeOf_lt_of_rightmostNamed? hinner) hf rfl)
            · exact absurd h (by simp only [reduceCtorEq, not_false_eq_true])
          · exact absurd h (by simp only [reduceCtorEq, not_false_eq_true])

/-- What may come of the parts of the source that are asked for in nodes of some kind. -/
structure Readable (code : List Char) (allowed : Fault → Prop) (fits : Node → Prop) : Prop where
  child : ∀ n, fits n → ∀ inner ∈ n.children, fits inner
  whole : ∀ n, fits n → FaultsOnly allowed (textOf code n)
  front : ∀ n inner, fits n → Within n inner →
    FaultsOnly allowed (slice code n.start inner.start)
  back : ∀ n inner, fits n → Within n inner → FaultsOnly allowed (slice code inner.stop n.stop)
  /-- A parameter up to the end of its declared part, if it has no name. -/
  unnamed : ∀ param stop, fits param → parameterStop code param = .ok stop →
    FaultsOnly allowed (slice code param.start stop)
  /-- What is behind the name of a parameter, up to the end of its declared part. -/
  named : ∀ param stop name, fits param → parameterStop code param = .ok stop →
    Within param name → name.stop ≤ stop → FaultsOnly allowed (slice code name.stop stop)

/-- A part of the source that does not exist is all that can come of asking for one. -/
theorem readable_badSlice (code : List Char) :
    Readable code (fun fault => ∃ start stop, fault = .badSlice start stop) fun _ => True := by
  -- Taking a slice has one way to fail, whoever takes it.
  have hslice : ∀ start stop, FaultsOnly (fun fault => ∃ start stop, fault = .badSlice start stop)
      (slice code start stop) := by
    intro start stop fault h
    unfold slice at h
    split at h
    · exact absurd h (by simp only [reduceCtorEq, not_false_eq_true])
    · exact ⟨start, stop, (Except.error.inj h).symm⟩
  exact {
    child := fun _ _ _ _ => trivial
    whole := fun _ _ => hslice _ _
    front := fun _ _ _ _ => hslice _ _
    back := fun _ _ _ _ => hslice _ _
    unnamed := fun _ _ _ _ => hslice _ _
    named := fun _ _ _ _ _ _ _ => hslice _ _ }

/-- A node and the siblings in front of it are of a kind. -/
structure LocatedFits (fits : Node → Prop) (l : Located) : Prop where
  node : fits l.node
  before : ∀ sibling ∈ l.before, fits sibling

/-- The siblings in front of a node come from the same list as the node. -/
theorem locatedFits_of_mem_locateFrom {fits : Node → Prop} {before nodes : List Node} {l : Located}
    (hbefore : ∀ n ∈ before, fits n) (hnodes : ∀ n ∈ nodes, fits n)
    (h : l ∈ locateFrom before nodes) : LocatedFits fits l := by
  induction nodes generalizing before with
  | nil => exact absurd h List.not_mem_nil
  | cons n nodes ih =>
      rw [List.forall_mem_cons] at hnodes
      -- Either it is the first of the nodes, or the first is in front of it.
      rcases List.mem_cons.mp h with rfl | h
      · exact ⟨hnodes.1, hbefore⟩
      · exact ih (List.forall_mem_cons.mpr ⟨hnodes.1, hbefore⟩) hnodes.2 h

namespace Readable

variable {code : List Char} {allowed : Fault → Prop} {fits : Node → Prop}
  (hr : Readable code allowed fits)

include hr

/-- Nodes inside are of the kind, by induction on the way down to them. -/
theorem within {n inner : Node} (hn : fits n) (h : Within n inner) : fits inner := by
  induction h with
  | refl => exact hn
  | tail _ hinner ih => exact hr.child _ ih _ hinner

theorem located {n : Node} (hn : fits n) {l : Located} (h : l ∈ n.located) : LocatedFits fits l :=
  locatedFits_of_mem_locateFrom (fun _ h => absurd h List.not_mem_nil) (hr.child n hn) h

/-- What a field name means is of the kind, and so is what stands in front of it. -/
theorem child? {n : Node} (hn : fits n) {field : String} {l : Located}
    (h : n.child? field = some l) : LocatedFits fits l := by
  rcases Option.bind_eq_some_iff.mp h with ⟨index, _, hindex⟩
  exact hr.located hn (List.mem_of_getElem? hindex)

theorem nameOf {n : Node} (hn : fits n) : FaultsOnly allowed (nameOf code n) :=
  (hr.whole n hn).bind_pure _

/-- Documentation is spelled out of comments, which are siblings in front. -/
theorem docComment {l : Located} (hl : LocatedFits fits l) :
    FaultsOnly allowed (docComment code l) := by
  refine .bind_pure (.mapM fun comment hcomment => .bind_pure (hr.whole comment ?_) _) _
  exact hl.before _ ((List.takeWhile_sublist _).mem (List.mem_reverse.mp hcomment))

/-- Only a child of the right kind is spelled out and compared with the keyword. -/
theorem hasSpecifier {n : Node} (hn : fits n) (keyword : String) :
    FaultsOnly allowed (hasSpecifier code n keyword) := by
  refine .anyM fun child hchild => ?_
  split
  · exact .pure true
  · split
    · exact .bind_pure (hr.whole child (hr.child n hn child hchild)) _
    · exact .pure false

/-- What makes a function pure stands between its declarator and the end of its declaration. -/
theorem isPureVirtual {declaration function : Node} (hn : fits declaration)
    (hfunction : Within declaration function) :
    FaultsOnly allowed (isPureVirtual code declaration function) :=
  (hr.back declaration function hn hfunction).bind_pure _

/-- The declared part of a parameter ends in front of its default value, if it has one. -/
theorem parameterStop {param : Node} (hn : fits param) :
    FaultsOnly allowed (parameterStop code param) := by
  unfold Extraction.parameterStop
  split
  · exact .pure _
  · next value hvalue => exact .bind_pure (hr.front param _ hn (within_of_child? hvalue)) _

/-- Two parts are asked for around the name of a parameter, or one if it has none. -/
theorem argument? {param : Node} (hn : fits param) :
    FaultsOnly allowed (argument? code param) := by
  unfold Extraction.argument?
  refine .bind (hr.parameterStop hn) fun stop hstop => ?_
  -- A name is only used where it lies in the declared part.
  have hname : ∀ name, ((param.child? "declarator").bind fun d => declaredIdentifier? d.node).filter
      (fun n => param.start ≤ n.start && n.stop ≤ stop) = some name →
      Within param name ∧ name.stop ≤ stop := by
    intro name h
    rw [Option.filter_eq_some_iff, Option.bind_eq_some_iff, Bool.and_eq_true, decide_eq_true_iff,
      decide_eq_true_iff] at h
    rcases h with ⟨⟨d, hd, hfound⟩, _, hstop⟩
    exact ⟨(within_of_child? hd).trans (within_of_declaredIdentifier? hfound), hstop⟩
  have hdefault : FaultsOnly allowed ((param.child? "default_value").mapM fun d => do
      return String.ofList (normalize (← textOf code d.node))) :=
    .optionMapM fun d hd => .bind_pure (hr.whole _ (hr.child? hn hd).node) _
  dsimp only at hname ⊢
  generalize Option.filter _ _ = name at hname ⊢
  cases name with
  | none =>
      refine .bind (hr.unnamed param stop hn hstop) fun spelled _ => ?_
      split
      · exact .pure none
      · exact hdefault.bind fun _ _ => .bind_pure (.pure "") _
  | some name =>
      rcases hname name rfl with ⟨hinside, hle⟩
      refine .bind (hr.front param name hn hinside) fun _ _ =>
        .bind (hr.named param stop name hn hstop hinside hle) fun _ _ =>
          .bind (.pure _) fun spelled _ => ?_
      split
      · exact .pure none
      · exact hdefault.bind fun _ _ => .bind_pure (hr.nameOf (hr.within hn hinside)) _

theorem arguments {list : Node} (hn : fits list) : FaultsOnly allowed (arguments code list) :=
  .collect fun _ hparam => hr.argument? (hr.child list hn _ (List.mem_filter.mp hparam).1)

/-- A return type is spelled out of the type and the qualifiers in front of it. -/
theorem returnType? {declaration : Node} (hn : fits declaration) (suffix : List Char) :
    FaultsOnly allowed (returnType? code declaration suffix) := by
  refine .optionMapM fun type htype => .bind_pure (.mapM fun part hpart => hr.whole part ?_) _
  have htype := hr.child? hn htype
  -- A part is a sibling in front of the type or the type itself.
  rcases List.mem_append.mp hpart with hpart | hpart
  · exact htype.before part (List.mem_reverse.mp (List.mem_filter.mp hpart).1)
  · exact List.mem_singleton.mp hpart ▸ htype.node

/-- The record of a function is read off its declaration and off the function inside of it. -/
theorem callable {declaration : Located} {function : Node} (hl : LocatedFits fits declaration)
    (hfunction : Within declaration.node function) (suffix : List Char) (name : String) :
    FaultsOnly allowed (callable code declaration function suffix name) := by
  have hinside := hr.within hl.node hfunction
  -- The word that makes a method constant stands behind its parameters.
  have hconst : FaultsOnly allowed (function.children.anyM fun child => do
      if child.kind == "type_qualifier" then return (← textOf code child) == "const".toList
      return false) := by
    refine .anyM fun child hchild => ?_
    split
    · exact .bind_pure (hr.whole child (hr.child _ hinside child hchild)) _
    · exact .pure false
  unfold Extraction.callable
  dsimp only
  split
  -- With a list of parameters or without one, everything else is read alike.
  all_goals
    refine .bind ?_ fun args _ => .bind (hr.returnType? hl.node suffix) fun _ _ =>
      .bind (hr.docComment hl) fun _ _ => .bind hconst fun _ _ =>
        .bind (hr.hasSpecifier hl.node _) fun _ _ => .bind (hr.hasSpecifier hl.node _) fun _ _ =>
          .bind_pure (hr.isPureVirtual hl.node hfunction) _
  · next list hlist => exact hr.arguments (hr.child? hinside hlist).node
  · exact .pure []

/-- An enumeration is named by one child and has a name for each of its values. -/
theorem enumeration? {l : Located} (hl : LocatedFits fits l) (scope : String) :
    FaultsOnly allowed (enumeration? code l scope) := by
  unfold Extraction.enumeration?
  split
  · exact .pure none
  · next body hbody =>
    refine .bind (.mapM fun name hname => hr.nameOf ?_) fun values _ => ?_
    -- The name of a value is two levels below the enumeration.
    · rcases List.mem_filterMap.mp hname with ⟨item, hitem, hname⟩
      have hitem := hr.child _ (hr.child? hl.node hbody).node item (List.mem_filter.mp hitem).1
      exact (hr.child? hitem hname).node
    · dsimp only
      split
      · next name hname =>
        exact .bind (hr.nameOf (hr.child? hl.node hname).node) fun _ _ =>
          .bind (.pure _) fun _ _ => .bind_pure (hr.docComment hl) _
      · exact .bind (.pure _) fun _ _ => .bind_pure (hr.docComment hl) _

theorem aliasedType {type : Node} (hn : fits type) : FaultsOnly allowed (aliasedType code type) := by
  unfold Extraction.aliasedType
  split
  · split
    · next name hname => exact hr.whole _ (hr.child? hn hname).node
    · exact .pure []
  · exact hr.whole type hn

/-- Two parts are asked for around the name that a typedef introduces. -/
theorem typedef? {l : Located} (hl : LocatedFits fits l) (scope : String) :
    FaultsOnly allowed (typedef? code l scope) := by
  unfold Extraction.typedef?
  split
  · next type declarator htype hdeclarator =>
    split
    · exact .pure none
    · next name hname =>
      have hn := (hr.child? hl.node hdeclarator).node
      have hinside := within_of_declaredIdentifier? hname
      exact .bind (hr.aliasedType (hr.child? hl.node htype).node) fun _ _ =>
        .bind (hr.front _ name hn hinside) fun _ _ => .bind (hr.back _ name hn hinside) fun _ _ =>
          .bind (hr.nameOf (hr.within hn hinside)) fun _ _ => .bind_pure (hr.docComment hl) _
  · exact .pure none

theorem alias? {l : Located} (hl : LocatedFits fits l) (scope : String) :
    FaultsOnly allowed (alias? code l scope) := by
  unfold Extraction.alias?
  split
  · next name type hname htype =>
    exact .bind (hr.nameOf (hr.child? hl.node hname).node) fun _ _ =>
      .bind (hr.whole _ (hr.child? hl.node htype).node) fun _ _ => .bind_pure (hr.docComment hl) _
  · exact .pure none

/-- A pack of template parameters is read as the parameter inside of it. -/
theorem templateParam? {param : Node} (hn : fits param) :
    FaultsOnly allowed (templateParam? code param) := by
  induction hsize : sizeOf param using Nat.strongRecOn generalizing param with
  | ind size ih =>
      subst hsize
      rw [Extraction.templateParam?]
      split
      -- A type among the parameters has nothing but its name to spell.
      iterate 2
        · refine .optionMapM fun name hname => .bind_pure (hr.nameOf ?_) _
          exact hr.child param hn name (List.mem_reverse.mp (List.mem_of_find?_eq_some hname))
      · refine .optionMapM fun name hname => .bind (hr.nameOf (hr.child? hn hname).node) fun _ _ =>
          .bind_pure (.optionMapM fun type htype => ?_) _
        exact .bind_pure (hr.whole _ (hr.child? hn htype).node) _
      iterate 2
        · split
          · next type name htype hname =>
            rcases Option.bind_eq_some_iff.mp hname with ⟨d, hd, hname⟩
            have hname := hr.within (hr.child? hn hd).node (within_of_declaredIdentifier? hname)
            refine .bind (hr.whole _ (hr.child? hn htype).node) fun _ _ =>
              .bind (hr.nameOf hname) fun _ _ => .bind_pure (.optionMapM fun d hd => ?_) _
            exact .bind_pure (hr.whole _ (hr.child? hn hd).node) _
          · exact .pure none
      · split
        · next inner hinner =>
          exact .bind_pure (ih _ (Node.sizeOf_lt_of_rightmostNamed? hinner)
            (hr.child param hn inner (Node.mem_children_of_rightmostNamed? hinner)) rfl) _
        · exact .pure none
      · exact .pure none

theorem templateParams {list : Node} (hn : fits list) :
    FaultsOnly allowed (templateParams code list) :=
  .collect fun param hparam => hr.templateParam? (hr.child list hn param hparam)

/-- In a list of base classes one child is looked at after the other. -/
theorem baseClasses {n : Node} (hn : fits n) : FaultsOnly allowed (baseClasses code n) := by
  refine .bind_pure (.mapM fun clause hclause => .bind_pure (.foldlM fun child hchild state => ?_) _)
    _
  have hclause := hr.child n hn clause (List.mem_filter.mp hclause).1
  have hchild := hr.whole child (hr.child clause hclause child hchild)
  unfold baseStep
  dsimp only
  split
  · exact hchild.bind_pure _
  · split
    · exact .pure _
    · split
      · exact hchild.bind_pure _
      · exact .pure _

/-- A function among the members is read once its name can be one. -/
theorem memberFunction {declaration : Located} {function : Node}
    (hl : LocatedFits fits declaration) (hfunction : Within declaration.node function)
    (suffix : List Char) (c : ClassRecord) :
    FaultsOnly allowed (memberFunction code declaration function suffix c) := by
  unfold Extraction.memberFunction
  split
  · exact .pure c
  · next name hname =>
    split
    · exact .pure c
    · refine .bind (hr.whole _ (hr.child? (hr.within hl.node hfunction) hname).node) fun _ _ =>
        .bind (hr.callable hl hfunction suffix _) fun m _ => ?_
      split
      · exact .pure _
      · exact .pure _

/-- A declarator among the members declares a function, a field or nothing. -/
theorem declaredMember {l : Located} (hl : LocatedFits fits l) (access : Access)
    (c : ClassRecord) : FaultsOnly allowed (declaredMember code l access c) := by
  unfold Extraction.declaredMember
  split
  · exact .pure c
  · next declarator hdeclarator =>
    split
    · next function suffix hfunction =>
      have hinside :=
        (within_of_child? hdeclarator).trans (within_of_functionDeclarator? hfunction)
      split
      · exact hr.memberFunction hl hinside suffix c
      -- Of a function that is not public it only matters whether it is pure.
      · refine .bind (hr.isPureVirtual hl.node hinside) fun _ _ => ?_
        split
        · exact .pure _
        · exact .pure c
    · split
      · exact .pure c
      · split
        · next type name htype hname =>
          have hname := hr.within (hr.child? hl.node hdeclarator).node
            (within_of_declaredIdentifier? hname)
          exact .bind (hr.nameOf hname) fun _ _ =>
            .bind (hr.whole _ (hr.child? hl.node htype).node) fun _ _ =>
              .bind_pure (hr.hasSpecifier hl.node _) _
        · exact .pure c

theorem memberEnum {l : Located} (hl : LocatedFits fits l) (access : Access) (c : ClassRecord) :
    FaultsOnly allowed (memberEnum code l access c) := by
  unfold Extraction.memberEnum
  split
  · exact .pure c
  · refine .bind (hr.enumeration? hl c.name) fun found _ => ?_
    cases found with
    | none => exact .pure c
    | some e => exact .pure _

/-- A nested class without a body is still known by its name. -/
theorem innerClass {l : Located} (hl : LocatedFits fits l) (c : ClassRecord)
    (hclass : FaultsOnly allowed (parseClass code l c.name)) :
    FaultsOnly allowed (innerClass code l c) := by
  unfold Extraction.innerClass
  refine .bind hclass fun found _ => ?_
  cases found with
  | some inner => exact .pure _
  | none =>
      dsimp only
      split
      · exact .pure c
      · next name hname => exact .bind_pure (hr.nameOf (hr.child? hl.node hname).node) _

/-- Filing a member may read a class that is smaller than the member or the member itself. -/
theorem fileMember {l : Located} (hl : LocatedFits fits l) (access : Access) (c : ClassRecord)
    (hclass : ∀ inner : Located, sizeOf inner.node ≤ sizeOf l.node → LocatedFits fits inner →
      ∀ scope, FaultsOnly allowed (parseClass code inner scope)) :
    FaultsOnly allowed (fileMember code l access c) := by
  unfold Extraction.fileMember
  split
  · refine .bind ?_ fun c _ => hr.declaredMember hl access c
    unfold memberType
    split
    · exact .pure c
    · next type htype =>
      have htype' := hr.child? hl.node htype
      have hsize := Nat.le_of_lt (Node.sizeOf_lt_of_child? htype)
      split
      · exact hr.innerClass htype' c (hclass type hsize htype' c.name)
      · split
        · exact hr.memberEnum htype' access c
        · exact .pure c
  · exact .bind_pure (hr.typedef? hl "") _
  · exact .bind_pure (hr.alias? hl "") _
  · exact hr.innerClass hl c (hclass l (Nat.le_refl _) hl c.name)
  · exact hr.memberEnum hl access c
  · exact .pure c

/-- Reading the children of a class body one after the other, the blocks among them included. -/
theorem visitMembers {before nodes : List Node} (hbefore : ∀ n ∈ before, fits n)
    (hnodes : ∀ n ∈ nodes, fits n) (state : ClassRecord × Access)
    (hclass : ∀ inner : Located, sizeOf inner.node < sizeOf nodes → LocatedFits fits inner →
      ∀ scope, FaultsOnly allowed (parseClass code inner scope)) :
    FaultsOnly allowed (visitMembers code before nodes state) := by
  induction hsize : sizeOf nodes using Nat.strongRecOn generalizing before nodes state with
  | ind size ih =>
      subst hsize
      cases nodes with
      | nil =>
          rw [Extraction.visitMembers]
          exact .pure state
      | cons child nodes =>
          rw [List.forall_mem_cons] at hnodes
          rw [List.cons.sizeOf_spec] at ih hclass
          have hchildren := child.sizeOf_children_lt
          rw [visitMembers_cons]
          refine .bind ?_ fun state _ => ?_
          · unfold visitMember
            split
            -- An access specifier, a block with children of its own, or a member.
            · exact .bind_pure (hr.whole child hnodes.1) _
            · refine ih _ (by omega) (fun _ h => absurd h List.not_mem_nil) (hr.child child hnodes.1)
                state (fun inner hlt => hclass inner (by omega)) rfl
            · exact .bind_pure (hr.fileMember ⟨hnodes.1, hbefore⟩ _ _
                fun inner hle => hclass inner (by dsimp only at hle; omega)) _
          · exact ih _ (by omega) (List.forall_mem_cons.mpr ⟨hnodes.1, hbefore⟩) hnodes.2 state
              (fun inner hlt => hclass inner (by omega)) rfl

/-- Reading a class, with everything that nests in it. -/
theorem parseClass {l : Located} (hl : LocatedFits fits l) (scope : String) :
    FaultsOnly allowed (parseClass code l scope) := by
  induction hsize : sizeOf l.node using Nat.strongRecOn generalizing l scope with
  | ind size ih =>
      subst hsize
      unfold Extraction.parseClass
      split
      · exact .pure none
      · next name hname =>
        split
        · exact .pure none
        · split
          · exact .pure none
          · next body hbody =>
            -- A class in the body is smaller than this one, so the induction covers it.
            have hchildren := body.node.sizeOf_children_lt
            have hlt := Node.sizeOf_lt_of_child? hbody
            have hinside := hr.child _ (hr.child? hl.node hbody).node
            refine .bind (hr.nameOf (hr.child? hl.node hname).node) fun _ _ =>
              .bind (hr.docComment hl) fun _ _ => .bind (hr.baseClasses hl.node) fun _ _ =>
                .bind_pure (hr.visitMembers (fun _ h => absurd h List.not_mem_nil) hinside _ ?_) _
            exact fun inner hsize hinner scope => ih _ (by omega) hinner scope rfl

end Readable

end Extraction

end HeaderBinding
