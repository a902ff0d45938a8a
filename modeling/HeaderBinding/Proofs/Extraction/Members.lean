import HeaderBinding.Proofs.Extraction.ClassBody

/-!
# What Members File

Reading a member of a class body and filing what it gives, one apart from the other.

The walk through a class body hands the record of the class from member to member, and so it looks
as if a member might be read in one way or another, depending on what has been filed before it. It
is not so. All that a member looks up in the record is the name of the class, and no filing changes
that. So there is a list of things that a member files in a class of some name (`memberFilings`),
and filing the member is filing the things on that list (`fileMember_eq`).

The record of a class is therefore a bare record in which the lists of its members are filed in the
order of the members (`parseClass_files`). What a class records is read off the lists. Some of it is
never replaced once it is filed: data members and operators stand in the order in which they are
filed, and a class stays abstract.

## Main definitions

* `MemberFiling`: One thing that a member files.
* `ClassRecord.file`, `ClassRecord.fileAll`: Filing one thing, and several one after the other.
* `memberFilings`: The things that a member files, in order.
* `MemberFiles`: The things that a member may file, with what they are read from.
* `publicClass`: A class with one member.

## Theorems

* `fileMember_eq`: Filing a member is filing the things on its list.
* `visitMembers_items`: The walk files the members of a body in order.
* `memberFilings_cases`, `declaratorFilings_cases`, `functionFilings_cases`: What is on the lists.
* `memberFiles_of_mem`: Where the things on the list of a member come from.
* `parseClass_files`: A class is a bare record in which the lists of its members are filed.
* `ClassRecord.fields_fileAll`, `ClassRecord.isAbstract_fileAll`: What is read off the lists.
-/

namespace HeaderBinding

/-- One thing that a member of a class body files in the record of the class. -/
inductive MemberFiling where
  /-- The class is abstract. -/
  | abstractMark
  | field (f : DataMember)
  | enumeration (e : Enumeration)
  | typedef (t : Typedef)
  | destructor (m : Method)
  /-- A function without a return type, filed if it is a constructor that is not there yet. -/
  | constructor (m : Method)
  | operator (m : Method)
  | method (m : Method)
  | inner (d : ClassRecord)

/-- The data member that is filed, if it is one. -/
def MemberFiling.field? : MemberFiling → Option DataMember
  | field f => some f
  | _ => none

/-- The typedef that is filed, if it is one. -/
def MemberFiling.typedef? : MemberFiling → Option Typedef
  | typedef t => some t
  | _ => none

/-- The operator that is filed, if it is one. -/
def MemberFiling.operator? : MemberFiling → Option Method
  | operator m => some m
  | _ => none

/-- The class is marked abstract. -/
def MemberFiling.isAbstractMark : MemberFiling → Bool
  | abstractMark => true
  | _ => false

namespace ClassRecord

open Extraction

/-- File one thing. -/
def file (c : ClassRecord) : MemberFiling → ClassRecord
  | .abstractMark => { c with isAbstract := true }
  | .field f => { c with fields := c.fields ++ [f] }
  | .enumeration e => c.withEnum e
  | .typedef t => c.withTypedef t
  | .destructor m => { c with destructors := c.destructors ++ [m] }
  | .constructor m => addConstructor c m
  | .operator m => { c with operators := c.operators ++ [m] }
  | .method m => c.addMethod m
  | .inner d => addInnerClass c d

/-- File several things one after the other. -/
def fileAll (c : ClassRecord) (filings : List MemberFiling) : ClassRecord :=
  filings.foldl file c

section Filed

variable (c : ClassRecord) (f : MemberFiling) (filings rest : List MemberFiling)

/-- Two lists are filed one after the other. -/
theorem fileAll_append : c.fileAll (filings ++ rest) = (c.fileAll filings).fileAll rest := by
  rw [fileAll, List.foldl_append, ← fileAll, ← fileAll]

/-- A constructor only touches the constructors. -/
theorem addConstructor_keeps (m : Method) :
    (addConstructor c m).name = c.name ∧ (addConstructor c m).fields = c.fields ∧
      (addConstructor c m).isAbstract = c.isAbstract ∧
      (addConstructor c m).typedefs = c.typedefs ∧
      (addConstructor c m).operators = c.operators := by
  unfold addConstructor
  split
  · exact ⟨rfl, rfl, rfl, rfl, rfl⟩
  · exact ⟨rfl, rfl, rfl, rfl, rfl⟩

/-- A method only touches the methods. -/
theorem addMethod_keeps (m : Method) :
    (c.addMethod m).name = c.name ∧ (c.addMethod m).fields = c.fields ∧
      (c.addMethod m).isAbstract = c.isAbstract ∧ (c.addMethod m).typedefs = c.typedefs ∧
      (c.addMethod m).operators = c.operators := by
  unfold addMethod
  split
  · exact ⟨rfl, rfl, rfl, rfl, rfl⟩
  · exact ⟨rfl, rfl, rfl, rfl, rfl⟩

/-- What filing one thing does to the parts of a record that are read off the list of all things
    filed. The name of the class is never changed. -/
theorem file_spec :
    (c.file f).name = c.name ∧ (c.file f).fields = c.fields ++ f.field?.toList ∧
      (c.file f).isAbstract = (c.isAbstract || f.isAbstractMark) ∧
      (c.file f).typedefs =
        f.typedef?.toList.foldl (fun d t => d.insert t.name t) c.typedefs ∧
      (c.file f).operators = c.operators ++ f.operator?.toList := by
  have hnil : c.fields = c.fields ++ [] := (List.append_nil _).symm
  have hnone : c.operators = c.operators ++ [] := (List.append_nil _).symm
  have hfalse : c.isAbstract = (c.isAbstract || false) := (Bool.or_false _).symm
  -- Most of what is filed goes to one part of the record. The others stay.
  cases f with
  | abstractMark => exact ⟨rfl, hnil, (Bool.or_true _).symm, rfl, hnone⟩
  | field f => exact ⟨rfl, rfl, hfalse, rfl, hnone⟩
  | operator m => exact ⟨rfl, hnil, hfalse, rfl, rfl⟩
  | constructor m =>
      rcases addConstructor_keeps c m with ⟨hname, hfields, habstract, htypedefs, hoperators⟩
      exact ⟨hname, hfields.trans hnil, habstract.trans hfalse, htypedefs,
        hoperators.trans hnone⟩
  | method m =>
      rcases addMethod_keeps c m with ⟨hname, hfields, habstract, htypedefs, hoperators⟩
      exact ⟨hname, hfields.trans hnil, habstract.trans hfalse, htypedefs,
        hoperators.trans hnone⟩
  | _ => exact ⟨rfl, hnil, hfalse, rfl, hnone⟩

/-- Whatever is filed, the class keeps its name. -/
theorem name_fileAll : (c.fileAll filings).name = c.name := by
  unfold fileAll
  induction filings generalizing c with
  | nil => rfl
  | cons f filings ih => rw [List.foldl_cons, ih, (c.file_spec f).1]

/-- Data members stand in the order in which they are filed. -/
theorem fields_fileAll :
    (c.fileAll filings).fields = c.fields ++ filings.filterMap (·.field?) := by
  unfold fileAll
  induction filings generalizing c with
  | nil => rw [List.foldl_nil, List.filterMap_nil, List.append_nil]
  | cons f filings ih =>
      rw [List.foldl_cons, ih, (c.file_spec f).2.1, List.filterMap_cons, List.append_assoc]
      cases f.field? with
      | none => rfl
      | some f => rfl

/-- A class is abstract once it is marked. -/
theorem isAbstract_fileAll :
    (c.fileAll filings).isAbstract = (c.isAbstract || filings.any (·.isAbstractMark)) := by
  unfold fileAll
  induction filings generalizing c with
  | nil => rw [List.foldl_nil, List.any_nil, Bool.or_false]
  | cons f filings ih =>
      rw [List.foldl_cons, ih, (c.file_spec f).2.2.1, List.any_cons, Bool.or_assoc]

/-- Typedefs are filed under their names, one after the other. -/
theorem typedefs_fileAll : (c.fileAll filings).typedefs =
    (filings.filterMap (·.typedef?)).foldl (fun d t => d.insert t.name t) c.typedefs := by
  unfold fileAll
  induction filings generalizing c with
  | nil => rfl
  | cons f filings ih =>
      rw [List.foldl_cons, ih, (c.file_spec f).2.2.2.1, List.filterMap_cons]
      cases f.typedef? with
      | none => rfl
      | some t => rfl

/-- Operators stand in the order in which they are filed. -/
theorem operators_fileAll :
    (c.fileAll filings).operators = c.operators ++ filings.filterMap (·.operator?) := by
  unfold fileAll
  induction filings generalizing c with
  | nil => rw [List.foldl_nil, List.filterMap_nil, List.append_nil]
  | cons f filings ih =>
      rw [List.foldl_cons, ih, (c.file_spec f).2.2.2.2, List.filterMap_cons, List.append_assoc]
      cases f.operator? with
      | none => rfl
      | some m => rfl

end Filed

end ClassRecord

namespace Extraction

open Syntax

section Reading

variable (code : List Char)

/-- What an enumeration in a class body files. -/
def enumFilings (n : Located) (access : Access) (owner : String) :
    Extract (List MemberFiling) := do
  if access != .isPublic then return []
  return ((← enumeration? code n owner).map .enumeration).toList

/-- What a class inside another files. -/
def innerFilings (n : Located) (owner : String) : Extract (List MemberFiling) := do
  match ← parseClass code n owner with
  | some inner => return [.inner inner]
  | none =>
    match n.node.child? "name" with
    | none => return []
    | some name => return [.inner { name := qualified owner (← nameOf code name.node) }]

/-- What the type of a member files. -/
def typeFilings (n : Located) (access : Access) (owner : String) :
    Extract (List MemberFiling) :=
  match n.node.child? "type" with
  | none => return []
  | some type =>
    if isClassKind type.node.kind then innerFilings code type owner
    else if isEnumKind type.node.kind then enumFilings code type access owner
    else return []

/-- What a public function with a return type files. -/
def returningFilings (m : Method) : List MemberFiling :=
  (if m.isPureVirtual then [.abstractMark] else []) ++
    if "operator".toList.isPrefixOf m.name.toList then [.operator m]
    else if m.hasRvalueArguments then []
    else [.method m]

/-- What a public function files. -/
def functionFilings (declaration : Located) (function : Node) (suffix : List Char) :
    Extract (List MemberFiling) := do
  match function.child? "declarator" with
  | none => return []
  | some nameNode =>
    if !isCallableName nameNode.node.kind then return []
    let name := normalize (← textOf code nameNode.node)
    let m ← callable code declaration function suffix (String.ofList name)
    if nameNode.node.kind == "destructor_name" || name.head? == some '~' then
      return [.destructor { m with returnType := none }]
    return if m.returnType.isNone then [.constructor m] else returningFilings m

/-- What a public data member files. -/
def fieldFilings (n declarator : Located) : Extract (List MemberFiling) :=
  match n.node.child? "type", declaredIdentifier? declarator.node with
  | some type, some name => do
    return [.field {
      name := ← nameOf code name
      type := spell (← textOf code type.node)
      isStatic := ← hasSpecifier code n.node "static" }]
  | _, _ => return []

/-- What a function or data member files. -/
def declaratorFilings (n : Located) (access : Access) : Extract (List MemberFiling) := do
  match n.node.child? "declarator" with
  | none => return []
  | some declarator =>
    match functionDeclarator? declarator.node with
    | some (function, suffix) =>
      if access == .isPublic then functionFilings code n function suffix
      else return if ← isPureVirtual code n.node function then [.abstractMark] else []
    | none => if access != .isPublic then return [] else fieldFilings code n declarator

/-- What a member files in a class of some name. -/
def memberFilings (n : Located) (access : Access) (owner : String) :
    Extract (List MemberFiling) :=
  match MemberItem.ofKind n.node.kind with
  | .member => do return (← typeFilings code n access owner) ++ (← declaratorFilings code n access)
  | .typedef => do return ((← typedef? code n "").map .typedef).toList
  | .aliasType => do return ((← alias? code n "").map .typedef).toList
  | .classType => innerFilings code n owner
  | .enum => enumFilings code n access owner
  | _ => return []

end Reading

section Lists

variable {code : List Char} {n : Located} {access : Access} {owner : String}
  {filings : List MemberFiling}

/-- An enumeration is all that it files. -/
theorem enumFilings_cases (h : enumFilings code n access owner = .ok filings) :
    filings = [] ∨ ∃ e, filings = [.enumeration e] := by
  unfold enumFilings at h
  split at h
  · exact Or.inl (pure_eq_ok.mp h).symm
  · rw [bind_eq_ok] at h
    rcases h with ⟨found, _, h⟩
    cases found with
    | none => exact Or.inl (pure_eq_ok.mp h).symm
    | some e => exact Or.inr ⟨e, (pure_eq_ok.mp h).symm⟩

/-- A class inside another files its record, which is bare if the class has no body. -/
theorem innerFilings_cases (h : innerFilings code n owner = .ok filings) :
    filings = [] ∨ ∃ d, filings = [.inner d] ∧
      (parseClass code n owner = .ok (some d) ∨ ∃ name, d = { name }) := by
  unfold innerFilings at h
  rw [bind_eq_ok] at h
  rcases h with ⟨found, hfound, h⟩
  cases found with
  | some d => exact Or.inr ⟨d, (pure_eq_ok.mp h).symm, Or.inl hfound⟩
  | none =>
      dsimp only at h
      split at h
      · exact Or.inl (pure_eq_ok.mp h).symm
      · simp only [bind_eq_ok, pure_eq_ok] at h
        rcases h with ⟨name, _, rfl⟩
        exact Or.inr ⟨_, rfl, Or.inr ⟨_, rfl⟩⟩

/-- The type of a member files a class, an enumeration or nothing. -/
theorem typeFilings_cases (h : typeFilings code n access owner = .ok filings) :
    filings = [] ∨ (∃ e, filings = [.enumeration e]) ∨
    ∃ type d, n.node.child? "type" = some type ∧ isClassKind type.node.kind = true ∧
      filings = [.inner d] ∧
      (parseClass code type owner = .ok (some d) ∨ ∃ name, d = { name }) := by
  unfold typeFilings at h
  split at h
  · exact Or.inl (pure_eq_ok.mp h).symm
  · next type htype =>
    split at h
    · next hclass =>
      rcases innerFilings_cases h with hnone | ⟨d, hd, hparsed⟩
      · exact Or.inl hnone
      · exact Or.inr (Or.inr ⟨type, d, htype, hclass, hd, hparsed⟩)
    · split at h
      · exact (enumFilings_cases h).imp_right Or.inl
      · exact Or.inl (pure_eq_ok.mp h).symm

/-- The name of a function that is named directly, and not through parentheses or pointers. -/
def directName? (function : Node) : Option Node :=
  ((function.child? "declarator").map (·.node)).filter (isCallableName ·.kind)

variable (code) in
/-- The name of a function is that of a destructor. -/
def NamesDestructor (name : Node) : Prop :=
  name.kind = "destructor_name" ∨ (normalize (spelled code name)).head? = some '~'

instance decidableNamesDestructor (name : Node) : Decidable (NamesDestructor code name) :=
  inferInstanceAs (Decidable (_ ∨ _))

/-- A public function that is named directly files a destructor, something without a return type or
    something with one, and nothing else is filed. -/
theorem functionFilings_cases {function : Node} {suffix : List Char}
    (h : functionFilings code n function suffix = .ok filings) :
    (directName? function = none ∧ filings = []) ∨
    ∃ name m, directName? function = some name ∧
      callable code n function suffix (String.ofList (normalize (spelled code name))) = .ok m ∧
      ((NamesDestructor code name ∧ filings = [.destructor { m with returnType := none }]) ∨
        (¬ NamesDestructor code name ∧ m.returnType = none ∧ filings = [.constructor m]) ∨
        (¬ NamesDestructor code name ∧ m.returnType.isSome ∧ filings = returningFilings m)) := by
  unfold functionFilings at h
  unfold directName?
  rcases hname : function.child? "declarator" with _ | name
  · rw [hname] at h
    exact Or.inl ⟨rfl, (pure_eq_ok.mp h).symm⟩
  · simp only [hname] at h
    -- A function that is not named directly files nothing.
    by_cases hcallable : isCallableName name.node.kind = true
    · rw [if_neg (by rw [hcallable]; exact Bool.false_ne_true)] at h
      simp only [bind_eq_ok] at h
      rcases h with ⟨text, htext, m, hm, h⟩
      refine Or.inr ⟨name.node, m, ?_, by rw [spelled_eq htext]; exact hm, ?_⟩
      · rw [Option.map_some, Option.filter_some, if_pos hcallable]
      · have hdestructor : NamesDestructor code name.node ↔
            (name.node.kind == "destructor_name" || (normalize text).head? == some '~') = true := by
          rw [NamesDestructor, spelled_eq htext, Bool.or_eq_true, beq_iff_eq, beq_iff_eq]
        split at h
        · next hname => exact Or.inl ⟨hdestructor.mpr hname, (pure_eq_ok.mp h).symm⟩
        · next hname =>
          -- Behind destructors, the return type tells constructors from everything else.
          rw [pure_eq_ok] at h
          subst h
          refine Or.inr ?_
          cases hreturn : m.returnType with
          | none => exact Or.inl ⟨fun hc => hname (hdestructor.mp hc), rfl, rfl⟩
          | some type => exact Or.inr ⟨fun hc => hname (hdestructor.mp hc), rfl, rfl⟩
    · rw [if_pos (by rw [eq_false_of_ne_true hcallable]; rfl)] at h
      refine Or.inl ⟨?_, (pure_eq_ok.mp h).symm⟩
      rw [Option.map_some, Option.filter_some, if_neg hcallable]

/-- A function with a return type is filed as an operator or as a method, by its name. -/
theorem mem_returningFilings {m : Method} {f : MemberFiling} (hf : f ∈ returningFilings m) :
    f = .abstractMark ∨ (f = .operator m ∧ "operator".toList.isPrefixOf m.name.toList = true) ∨
      (f = .method m ∧ "operator".toList.isPrefixOf m.name.toList = false ∧
        m.hasRvalueArguments = false) := by
  unfold returningFilings at hf
  -- The mark of a pure function stands in front of the function.
  rcases List.mem_append.mp hf with hmark | hfiled
  · split at hmark
    · exact Or.inl (List.mem_singleton.mp hmark)
    · exact absurd hmark List.not_mem_nil
  · split at hfiled
    · next hoperator => exact Or.inr (Or.inl ⟨List.mem_singleton.mp hfiled, hoperator⟩)
    · next hoperator =>
      split at hfiled
      · exact absurd hfiled List.not_mem_nil
      · next hrvalue =>
        exact Or.inr (Or.inr ⟨List.mem_singleton.mp hfiled, eq_false_of_ne_true hoperator,
          eq_false_of_ne_true hrvalue⟩)

/-- A public data member has a type and a name. -/
theorem fieldFilings_cases {declarator : Located}
    (h : fieldFilings code n declarator = .ok filings) :
    ((n.node.child? "type" = none ∨ declaredIdentifier? declarator.node = none) ∧ filings = []) ∨
    ∃ type name isStatic, n.node.child? "type" = some type ∧
      declaredIdentifier? declarator.node = some name ∧
      hasSpecifier code n.node "static" = .ok isStatic ∧
      filings = [.field {
        name := String.ofList (spelled code name)
        type := spell (spelled code type.node)
        isStatic }] := by
  unfold fieldFilings at h
  rcases htype : n.node.child? "type" with _ | type
  · rw [htype] at h
    exact Or.inl ⟨Or.inl rfl, (pure_eq_ok.mp h).symm⟩
  · rcases hname : declaredIdentifier? declarator.node with _ | name
    · rw [htype, hname] at h
      exact Or.inl ⟨Or.inr rfl, (pure_eq_ok.mp h).symm⟩
    · simp only [htype, hname, nameOf, bind_eq_ok, pure_eq_ok] at h
      rcases h with ⟨_, ⟨text, htext, rfl⟩, spelling, hspelling, isStatic, hstatic, rfl⟩
      refine Or.inr ⟨type, name, isStatic, rfl, rfl, hstatic, ?_⟩
      rw [spelled_eq htext, spelled_eq hspelling]

/-- A member that has a declarator files a function or a data member. Of one that is not public no
    more is filed than the mark of an abstract class. -/
theorem declaratorFilings_cases (h : declaratorFilings code n access = .ok filings) :
    (n.node.child? "declarator" = none ∧ filings = []) ∨
    (∃ declarator function suffix, n.node.child? "declarator" = some declarator ∧
      functionDeclarator? declarator.node = some (function, suffix) ∧
      ((access = .isPublic ∧ functionFilings code n function suffix = .ok filings) ∨
        (access ≠ .isPublic ∧ ∃ isPure, isPureVirtual code n.node function = .ok isPure ∧
          filings = if isPure then [.abstractMark] else []))) ∨
    ∃ declarator, n.node.child? "declarator" = some declarator ∧
      functionDeclarator? declarator.node = none ∧
      ((access = .isPublic ∧ fieldFilings code n declarator = .ok filings) ∨
        (access ≠ .isPublic ∧ filings = [])) := by
  unfold declaratorFilings at h
  rcases hdeclarator : n.node.child? "declarator" with _ | declarator
  · rw [hdeclarator] at h
    exact Or.inl ⟨rfl, (pure_eq_ok.mp h).symm⟩
  · simp only [hdeclarator] at h
    -- A declarator that leads to no function is that of a data member.
    rcases hfunction : functionDeclarator? declarator.node with _ | ⟨function, suffix⟩
    · simp only [hfunction] at h
      refine Or.inr (Or.inr ⟨declarator, rfl, hfunction, ?_⟩)
      split at h
      · next haccess => exact Or.inr ⟨bne_iff_ne.mp haccess, (pure_eq_ok.mp h).symm⟩
      · next haccess =>
        exact Or.inl ⟨by_contra fun hc => haccess (bne_iff_ne.mpr hc), h⟩
    · simp only [hfunction] at h
      refine Or.inr (Or.inl ⟨declarator, function, suffix, rfl, hfunction, ?_⟩)
      split at h
      · next haccess => exact Or.inl ⟨beq_iff_eq.mp haccess, h⟩
      · next haccess =>
        rw [bind_eq_ok] at h
        rcases h with ⟨isPure, hpure, h⟩
        exact Or.inr ⟨fun hc => haccess (beq_iff_eq.mpr hc), isPure, hpure, (pure_eq_ok.mp h).symm⟩

/-- What a member files depends on its kind. Only functions and data members file more than one
    thing. -/
theorem memberFilings_cases (h : memberFilings code n access owner = .ok filings) :
    (MemberItem.ofKind n.node.kind = .member ∧ ∃ first second,
      typeFilings code n access owner = .ok first ∧ declaratorFilings code n access = .ok second ∧
      filings = first ++ second) ∨
    (MemberItem.ofKind n.node.kind ≠ .member ∧ (filings = [] ∨
      (∃ e, filings = [.enumeration e]) ∨
      (∃ t, filings = [.typedef t] ∧
        (MemberItem.ofKind n.node.kind = .typedef ∧ typedef? code n "" = .ok (some t) ∨
          MemberItem.ofKind n.node.kind = .aliasType ∧ alias? code n "" = .ok (some t))) ∨
      ∃ d, filings = [.inner d] ∧ MemberItem.ofKind n.node.kind = .classType ∧
        (parseClass code n owner = .ok (some d) ∨ ∃ name, d = { name }))) := by
  unfold memberFilings at h
  cases hkind : MemberItem.ofKind n.node.kind with
  | member =>
      simp only [hkind, bind_eq_ok, pure_eq_ok] at h
      rcases h with ⟨first, hfirst, second, hsecond, hfilings⟩
      exact Or.inl ⟨rfl, first, second, hfirst, hsecond, hfilings.symm⟩
  | typedef =>
      simp only [hkind, bind_eq_ok, pure_eq_ok] at h
      rcases h with ⟨found, hfound, rfl⟩
      refine Or.inr ⟨MemberItem.noConfusion, ?_⟩
      cases found with
      | none => exact Or.inl rfl
      | some t => exact Or.inr (Or.inr (Or.inl ⟨t, rfl, Or.inl ⟨rfl, hfound⟩⟩))
  | aliasType =>
      simp only [hkind, bind_eq_ok, pure_eq_ok] at h
      rcases h with ⟨found, hfound, rfl⟩
      refine Or.inr ⟨MemberItem.noConfusion, ?_⟩
      cases found with
      | none => exact Or.inl rfl
      | some t => exact Or.inr (Or.inr (Or.inl ⟨t, rfl, Or.inr ⟨rfl, hfound⟩⟩))
  | classType =>
      rw [hkind] at h
      refine Or.inr ⟨MemberItem.noConfusion, ?_⟩
      rcases innerFilings_cases h with hnone | ⟨d, hd, hparsed⟩
      · exact Or.inl hnone
      · exact Or.inr (Or.inr (Or.inr ⟨d, hd, rfl, hparsed⟩))
  | enum =>
      rw [hkind] at h
      exact Or.inr ⟨MemberItem.noConfusion, (enumFilings_cases h).imp_right Or.inl⟩
  | access | block | other =>
      rw [hkind] at h
      exact Or.inr ⟨MemberItem.noConfusion, Or.inl (pure_eq_ok.mp h).symm⟩

variable (code n) in
/-- A member declares a function that is named directly and is read as a record. -/
def DeclaresFunction (m : Method) : Prop :=
  ∃ function name, directName? function = some name ∧
    ReadsFunction code n function (String.ofList (normalize (spelled code name))) m

variable (code n access owner) in
/-- The things that a member may file, with what they are read from. -/
inductive MemberFiles : MemberFiling → Prop
  | abstractMark : MemberFiles .abstractMark
  | enumeration (e : Enumeration) : MemberFiles (.enumeration e)
  | typedef (t : Typedef) (hkind : MemberItem.ofKind n.node.kind = .typedef)
      (ht : typedef? code n "" = .ok (some t)) : MemberFiles (.typedef t)
  | aliasType (t : Typedef) (hkind : MemberItem.ofKind n.node.kind = .aliasType)
      (ht : alias? code n "" = .ok (some t)) : MemberFiles (.typedef t)
  | inner (l : Located) (d : ClassRecord) (hl : nestedClass? n.node = some l.node)
      (hd : parseClass code l owner = .ok (some d) ∨ ∃ name, d = { name }) :
      MemberFiles (.inner d)
  | field (declarator : Located) (d : DataMember) (hpublic : access = .isPublic)
      (hdeclarator : n.node.child? "declarator" = some declarator)
      (hd : fieldFilings code n declarator = .ok [.field d]) : MemberFiles (.field d)
  | destructor (m : Method) (hpublic : access = .isPublic) (hm : DeclaresFunction code n m) :
      MemberFiles (.destructor { m with returnType := none })
  | constructor (m : Method) (hpublic : access = .isPublic) (hm : DeclaresFunction code n m)
      (hreturn : m.returnType = none) : MemberFiles (.constructor m)
  | operator (m : Method) (hpublic : access = .isPublic) (hm : DeclaresFunction code n m)
      (hname : "operator".toList.isPrefixOf m.name.toList = true) : MemberFiles (.operator m)
  | method (m : Method) (hpublic : access = .isPublic) (hm : DeclaresFunction code n m)
      (hname : "operator".toList.isPrefixOf m.name.toList = false)
      (hrvalue : m.hasRvalueArguments = false) : MemberFiles (.method m)

/-- The type of a member may be a class that is nested or an enumeration. -/
theorem memberFiles_of_typeFilings {f : MemberFiling}
    (hkind : MemberItem.ofKind n.node.kind = .member)
    (h : typeFilings code n access owner = .ok filings) (hf : f ∈ filings) :
    MemberFiles code n access owner f := by
  rcases typeFilings_cases h with rfl | ⟨e, rfl⟩ | ⟨type, d, htype, hclass, rfl, hd⟩
  · exact absurd hf List.not_mem_nil
  · obtain rfl := List.mem_singleton.mp hf
    exact .enumeration e
  · obtain rfl := List.mem_singleton.mp hf
    refine .inner type d ?_ hd
    rw [nestedClass?, hkind]
    change ((n.node.child? "type").map (·.node)).filter (isClassKind ·.kind) = _
    rw [htype, Option.map_some, Option.filter_some, if_pos hclass]

/-- What the declarator of a member files is read off a function or a data member. -/
theorem memberFiles_of_declaratorFilings {f : MemberFiling}
    (h : declaratorFilings code n access = .ok filings) (hf : f ∈ filings) :
    MemberFiles code n access owner f := by
  rcases declaratorFilings_cases h with ⟨_, rfl⟩ |
    ⟨declarator, function, suffix, hdeclarator, hfunction, hcases⟩ |
    ⟨declarator, hdeclarator, _, hcases⟩
  · exact absurd hf List.not_mem_nil
  · rcases hcases with ⟨hpublic, hfilings⟩ | ⟨_, isPure, _, rfl⟩
    · rcases functionFilings_cases hfilings with ⟨_, rfl⟩ | ⟨name, m, hname, hm, hcases⟩
      · exact absurd hf List.not_mem_nil
      -- Whatever it is filed as, it was read as the record of one function.
      · have hdeclares : DeclaresFunction code n m := by
          refine ⟨function, name, hname, suffix, ?_, hm⟩
          rw [hdeclarator, Option.bind_some, hfunction]
        rcases hcases with ⟨_, rfl⟩ | ⟨_, hreturn, rfl⟩ | ⟨_, _, rfl⟩
        · obtain rfl := List.mem_singleton.mp hf
          exact .destructor m hpublic hdeclares
        · obtain rfl := List.mem_singleton.mp hf
          exact .constructor m hpublic hdeclares hreturn
        · rcases mem_returningFilings hf with rfl | ⟨rfl, hoperator⟩ | ⟨rfl, hoperator, hrvalue⟩
          · exact .abstractMark
          · exact .operator m hpublic hdeclares hoperator
          · exact .method m hpublic hdeclares hoperator hrvalue
    -- A function that is not public can only mark its class.
    · split at hf
      · obtain rfl := List.mem_singleton.mp hf
        exact .abstractMark
      · exact absurd hf List.not_mem_nil
  · rcases hcases with ⟨hpublic, hfilings⟩ | ⟨_, rfl⟩
    · rcases fieldFilings_cases hfilings with ⟨_, rfl⟩ | ⟨_, _, _, _, _, _, rfl⟩
      · exact absurd hf List.not_mem_nil
      · obtain rfl := List.mem_singleton.mp hf
        exact .field declarator _ hpublic hdeclarator hfilings
    · exact absurd hf List.not_mem_nil

/-- Where the things on the list of a member come from. -/
theorem memberFiles_of_mem {f : MemberFiling} (h : memberFilings code n access owner = .ok filings)
    (hf : f ∈ filings) : MemberFiles code n access owner f := by
  rcases memberFilings_cases h with ⟨hkind, first, second, hfirst, hsecond, rfl⟩ | ⟨_, hother⟩
  · rcases List.mem_append.mp hf with hf | hf
    · exact memberFiles_of_typeFilings hkind hfirst hf
    · exact memberFiles_of_declaratorFilings hsecond hf
  -- Every other member files one thing at most.
  · rcases hother with rfl | ⟨e, rfl⟩ | ⟨t, rfl, ⟨hkind, ht⟩ | ⟨hkind, ht⟩⟩ | ⟨d, rfl, hkind, hd⟩
    · exact absurd hf List.not_mem_nil
    · obtain rfl := List.mem_singleton.mp hf
      exact .enumeration e
    · obtain rfl := List.mem_singleton.mp hf
      exact .typedef t hkind ht
    · obtain rfl := List.mem_singleton.mp hf
      exact .aliasType t hkind ht
    · obtain rfl := List.mem_singleton.mp hf
      exact .inner n d (by rw [nestedClass?, hkind]) hd

/-- A declarator of a function declares this function. -/
theorem declaredFunction?_of_kind {item : Node} {declarator : Located}
    (hdeclarator : item.child? "declarator" = some declarator)
    (hkind : declarator.node.kind = "function_declarator") :
    declaredFunction? item = some declarator.node := by
  rw [declaredFunction?, hdeclarator, Option.bind_some, functionDeclarator?_of_kind hkind,
    Option.map_some]

/-- A member whose declarator is that of a function. -/
theorem declaratorFilings_of_kind {declarator : Located}
    (hdeclarator : n.node.child? "declarator" = some declarator)
    (hkind : declarator.node.kind = "function_declarator") :
    declaratorFilings code n .isPublic = functionFilings code n declarator.node [] := by
  unfold declaratorFilings
  simp only [hdeclarator, functionDeclarator?_of_kind hkind, beq_self_eq_true, if_true]

/-- A member whose type defines nothing. -/
theorem memberFilings_of_plain (hkind : MemberItem.ofKind n.node.kind = .member)
    (htype : ((n.node.child? "type").any fun type =>
      isClassKind type.node.kind || isEnumKind type.node.kind) = false) :
    memberFilings code n access owner = declaratorFilings code n access := by
  -- The type files nothing, so what is left is the declarator.
  have hnone : typeFilings code n access owner = .ok [] := by
    unfold typeFilings
    cases hchild : n.node.child? "type" with
    | none => rfl
    | some type =>
        rw [hchild, Option.any_some, Bool.or_eq_false_iff] at htype
        simp only [htype.1, htype.2]
        rfl
  unfold memberFilings
  simp only [hkind, hnone]
  cases declaratorFilings code n access with
  | error fault => rfl
  | ok filings => rfl

end Lists

section Filing

variable (code : List Char) (c : ClassRecord)

/-- Filing an enumeration is filing its list. -/
theorem memberEnum_eq (n : Located) (access : Access) :
    memberEnum code n access c = c.fileAll <$> enumFilings code n access c.name := by
  unfold memberEnum enumFilings
  split
  · rfl
  · rw [map_bind]
    refine bind_congr fun found => ?_
    cases found with
    | none => rfl
    | some e => rfl

/-- So it is with a nested class. -/
theorem innerClass_eq (n : Located) :
    innerClass code n c = c.fileAll <$> innerFilings code n c.name := by
  unfold innerClass innerFilings
  rw [map_bind]
  refine bind_congr fun found => ?_
  cases found with
  | some inner => rfl
  | none =>
      cases n.node.child? "name" with
      | none => rfl
      | some name =>
          dsimp only
          rw [map_bind]
          rfl

/-- So it is with the type of a member. -/
theorem memberType_eq (n : Located) (access : Access) :
    memberType code n access c = c.fileAll <$> typeFilings code n access c.name := by
  rw [memberType]
  unfold typeFilings
  split
  · next hnone =>
    rw [hnone]
    rfl
  · next type htype =>
    simp only [htype]
    split
    · exact innerClass_eq code c type
    · split
      · exact memberEnum_eq code c type access
      · rfl

/-- So it is with a function that returns something. -/
theorem addReturning_eq (m : Method) : addReturning c m = c.fileAll (returningFilings m) := by
  -- The mark is filed first, and what follows does not look at it.
  have hmarked : (if m.isPureVirtual then { c with isAbstract := true } else c) =
      c.fileAll (if m.isPureVirtual then [.abstractMark] else []) := by
    split
    · rfl
    · rfl
  unfold addReturning returningFilings
  rw [ClassRecord.fileAll_append, hmarked]
  dsimp only
  split
  · rfl
  · split
    · rfl
    · rfl

/-- So it is with any public function. -/
theorem memberFunction_eq (declaration : Located) (function : Node) (suffix : List Char) :
    memberFunction code declaration function suffix c =
      c.fileAll <$> functionFilings code declaration function suffix := by
  unfold memberFunction functionFilings
  cases function.child? "declarator" with
  | none => rfl
  | some nameNode =>
      dsimp only
      split
      · rfl
      · simp only [map_bind]
        -- The name and the record are read alike, and then it is filed by its name.
        refine bind_congr fun text => bind_congr fun m => ?_
        split
        · rfl
        · rw [map_pure, addReturning_eq]
          split
          · rfl
          · rfl

/-- A member that has a declarator files a function or a data member. -/
theorem declaredMember_eq (n : Located) (access : Access) :
    declaredMember code n access c = c.fileAll <$> declaratorFilings code n access := by
  unfold declaredMember declaratorFilings
  cases n.node.child? "declarator" with
  | none => rfl
  | some declarator =>
      dsimp only
      rcases functionDeclarator? declarator.node with _ | ⟨function, suffix⟩
      · dsimp only
        split
        · rfl
        · unfold fieldFilings
          cases n.node.child? "type" with
          | none => rfl
          | some type =>
              cases declaredIdentifier? declarator.node with
              | none => rfl
              | some name =>
                  simp only [map_bind, map_pure]
                  rfl
      · dsimp only
        split
        · exact memberFunction_eq code c n function suffix
        · rw [map_bind]
          refine bind_congr fun isPure => ?_
          split
          · rfl
          · rfl

/-- Filing a member is filing the things on its list. -/
theorem fileMember_eq (n : Located) (access : Access) :
    fileMember code n access c = c.fileAll <$> memberFilings code n access c.name := by
  unfold fileMember memberFilings
  cases MemberItem.ofKind n.node.kind with
  | access | block | other => rfl
  | typedef | aliasType =>
      simp only [map_bind, map_pure]
      refine bind_congr fun found => ?_
      cases found with
      | none => rfl
      | some t => rfl
  | classType => exact innerClass_eq code c n
  | enum => exact memberEnum_eq code c n access
  | member =>
      -- The type of the member leaves the name of the class, which is all that is looked up.
      simp only [memberType_eq, declaredMember_eq, bind_map_left, map_bind, map_pure]
      refine bind_congr fun first => ?_
      simp only [ClassRecord.fileAll_append, map_eq_pure_bind]

end Filing

section Walk

variable {code : List Char} {c c' : ClassRecord} {access access' : Access}
  {before nodes : List Node}

/-- A walk through a class body files its members in order. -/
theorem visitMembers_items (h : visitMembers code before nodes (c, access) = .ok (c', access')) :
    ∃ items : List (Access × Located),
      items.map (fun item => (item.1, item.2.node)) = sections code access nodes ∧
      items.foldlM (fun c item => fileMember code item.2 item.1 c) c = .ok c' := by
  -- Induction on the size, since a block is walked through before the nodes behind it.
  induction hsize : sizeOf nodes using Nat.strongRecOn
    generalizing nodes before c access c' access' with
  | ind size ih =>
      subst hsize
      cases nodes with
      | nil =>
          rw [visitMembers, pure_eq_ok, Prod.mk.injEq] at h
          rcases h with ⟨rfl, rfl⟩
          exact ⟨[], by rw [sections, List.map_nil], rfl⟩
      | cons child nodes =>
          rw [visitMembers_cons, bind_eq_ok] at h
          rw [List.cons.sizeOf_spec] at ih
          rcases h with ⟨⟨c₁, access₁⟩, hchild, hrest⟩
          rcases ih (sizeOf nodes) (by omega) hrest rfl with ⟨items, hitems, hfold⟩
          rcases visitMember_cases hchild with hset | hblock | hmember
          -- A specifier is no member, and the rest stands behind another access.
          · rcases hset with ⟨rfl, hcons⟩
            exact ⟨items, by rw [hcons, hitems], hfold⟩
          · rcases hblock with ⟨hblock, hcons⟩
            have := child.sizeOf_children_lt
            rcases ih (sizeOf child.children) (by omega) hblock rfl with ⟨inner, hinner, hfirst⟩
            refine ⟨inner ++ items, ?_, ?_⟩
            · -- The access at the end of the block holds behind it.
              rw [hcons, (visitMembers_run hblock).1, List.map_append, hinner, hitems]
            · rw [List.foldlM_append, bind_eq_ok]
              exact ⟨c₁, hfirst, hfold⟩
          -- A member goes in front of the others.
          · rcases hmember with ⟨rfl, hfile, hcons⟩
            refine ⟨(access₁, ⟨child, before⟩) :: items, ?_, ?_⟩
            · rw [hcons, List.map_cons, hitems]
            · rw [List.foldlM_cons, bind_eq_ok]
              exact ⟨c₁, hfile, hfold⟩

/-- Filing members in order is filing the things on their lists in order. -/
theorem foldlM_fileMember_eq (items : List (Access × Located)) :
    items.foldlM (fun c item => fileMember code item.2 item.1 c) c =
      (fun lists => c.fileAll lists.flatten) <$>
        items.mapM fun item => memberFilings code item.2 item.1 c.name := by
  induction items generalizing c with
  | nil => rfl
  | cons item items ih =>
      -- The lists do not depend on what has been filed, for the class keeps its name.
      rw [List.foldlM_cons, List.mapM_cons, fileMember_eq]
      simp only [map_eq_pure_bind, bind_assoc, pure_bind, ih, ClassRecord.name_fileAll,
        List.flatten_cons, ClassRecord.fileAll_append]

end Walk

/-- A class is a bare record in which the things on the lists of its members are filed, in the order
    of the members. -/
theorem parseClass_files {code : List Char} {n : Located} {scope : String} {c : ClassRecord}
    (h : parseClass code n scope = .ok (some c)) :
    ∃ name comment superclasses, ∃ items : List (Access × Located), ∃ lists,
      definedName? code scope n.node = some name ∧
      items.map (fun item => (item.1, item.2.node)) = bodyMembers code n.node ∧
      List.Forall₂ (fun item filings => memberFilings code item.2 item.1 name = .ok filings)
        items lists ∧
      c = ({ name, comment, superclasses } : ClassRecord).fileAll lists.flatten := by
  rcases parseClass_spec h with ⟨name, comment, superclasses, access, body, hname, hbody, hwalk⟩
  rcases visitMembers_items hwalk with ⟨items, hitems, hfold⟩
  rw [foldlM_fileMember_eq, map_eq_pure_bind, bind_eq_ok] at hfold
  rcases hfold with ⟨lists, hlists, hc⟩
  refine ⟨name, comment, superclasses, items, lists, hname, ?_, ?_, (pure_eq_ok.mp hc).symm⟩
  · rw [hitems, bodyMembers, hbody]
  · exact (mapM_eq_ok_iff _ _ _).mp hlists

section OneMember

/-- The specifier of a public section. -/
def publicMark : Node :=
  { kind := "access_specifier", named := true, start := 10, stop := 16, fields := []
    children := [leaf "public" false 10 16] }

/-- The class `class A` with one member, which stands behind `public:`. -/
def publicClass (member : Node) : Node :=
  { kind := "class_specifier", named := true, start := 0, stop := member.stop + 2
    fields := [("body", 2), ("name", 1)]
    children := [leaf "class" false 0 5, leaf "type_identifier" true 6 7,
      { kind := "field_declaration_list", named := true, start := 8, stop := member.stop + 2
        fields := []
        children := [leaf "\x7b" false 8 9, publicMark, leaf ":" false 16 17, member,
          leaf "\x7d" false (member.stop + 1) (member.stop + 2)] }] }

variable {code : List Char} {member : Node} {c : ClassRecord}

/-- The braces and the colon are nodes of the body as well. -/
theorem bodyMembers_publicClass (hmark : textOf code publicMark = .ok "public".toList)
    (hkind : MemberItem.ofKind member.kind = .member) :
    bodyMembers code (publicClass member) =
      [(.isPrivate, leaf "\x7b" false 8 9), (.isPublic, leaf ":" false 16 17), (.isPublic, member),
        (.isPublic, leaf "\x7d" false (member.stop + 1) (member.stop + 2))] := by
  have hpublic : Access.ofKeyword (spelled code publicMark) = .isPublic := by
    rw [spelled_eq hmark]
    rfl
  have hmarked : ∀ rest, sections code .isPrivate (publicMark :: rest) =
      sections code .isPublic rest := by
    intro rest
    rw [← hpublic]
    exact sections.eq_2 ..
  have hclose : MemberItem.ofKind "\x7d" = .other := by decide
  change sections code .isPrivate [leaf "\x7b" false 8 9, publicMark, leaf ":" false 16 17, member,
    leaf "\x7d" false (member.stop + 1) (member.stop + 2)] = _
  rw [sections_cons_of_member (by decide) (by decide), hmarked,
    sections_cons_of_member (by decide) (by decide),
    sections_cons_of_member (hkind ▸ MemberItem.noConfusion) (hkind ▸ MemberItem.noConfusion),
    sections_cons_of_member (hclose ▸ MemberItem.noConfusion) (hclose ▸ MemberItem.noConfusion),
    sections]

/-- Only the member in it makes the class declare anything. -/
theorem mem_bodyMembers_publicClass (hmark : textOf code publicMark = .ok "public".toList)
    (hkind : MemberItem.ofKind member.kind = .member) (entry : Access × Node) :
    entry ∈ bodyMembers code (publicClass member) ∧ MemberItem.ofKind entry.2.kind = .member ↔
      entry = (.isPublic, member) := by
  have hclose : MemberItem.ofKind "\x7d" = .other := by decide
  rw [bodyMembers_publicClass hmark hkind]
  simp only [List.mem_cons, List.not_mem_nil, or_false]
  constructor
  · -- None of the braces and marks declares anything.
    rintro ⟨rfl | rfl | rfl | rfl, hmember⟩
    · exact absurd hmember (by decide)
    · exact absurd hmember (by decide)
    · rfl
    · exact absurd (hclose.symm.trans hmember) MemberItem.noConfusion
  · rintro rfl
    exact ⟨Or.inr (Or.inr (Or.inl rfl)), hkind⟩

/-- The record of the class is what filing its member makes of a bare record. -/
theorem parseClass_publicClass (hname : nameOf code (leaf "type_identifier" true 6 7) = .ok "A")
    (hmark : textOf code publicMark = .ok "public".toList)
    (hkind : MemberItem.ofKind member.kind = .member)
    (hfile : fileMember code
      ⟨member, [leaf ":" false 16 17, publicMark, leaf "\x7b" false 8 9]⟩ .isPublic
        { name := "A" } = .ok c) :
    parseClass code ⟨publicClass member, []⟩ "" = .ok (some c) := by
  -- The walk goes over a brace, the specifier, a colon, the member and a brace.
  have hwalk : visitMembers code [] [leaf "\x7b" false 8 9, publicMark, leaf ":" false 16 17,
      member, leaf "\x7d" false (member.stop + 1) (member.stop + 2)]
      ({ name := "A" }, .isPrivate) = .ok (c, .isPublic) := by
    rw [visitMembers_cons, bind_eq_ok]
    refine ⟨_, rfl, ?_⟩
    rw [visitMembers_cons, bind_eq_ok]
    refine ⟨({ name := "A" }, .isPublic), ?_, ?_⟩
    · change (do return (_, Access.ofKeyword (← textOf code publicMark))) = _
      rw [hmark]
      rfl
    · rw [visitMembers_cons, bind_eq_ok]
      refine ⟨_, rfl, ?_⟩
      rw [visitMembers_cons, bind_eq_ok]
      refine ⟨(c, .isPublic), ?_, ?_⟩
      · unfold visitMember
        simp only [hkind, hfile]
        rfl
      · rw [visitMembers_cons, bind_eq_ok]
        refine ⟨_, rfl, ?_⟩
        rw [visitMembers]
        rfl
  exact parseClass_eq_ok rfl (by decide) rfl hname rfl rfl hwalk

end OneMember

end Extraction

end HeaderBinding
