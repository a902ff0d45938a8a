import HeaderBinding.Proofs.Except
import HeaderBinding.Proofs.Extraction.Growth
import HeaderBinding.Proofs.Extraction.Tree

/-!
# Reading Class Bodies

What the record of a class has to do with the body it is read from.

One child of a class body sets the access, opens a block of conditional compilation or is a member
and is filed (`visitMember_cases`). The walk through the body therefore keeps whatever filing a
member keeps, and the access that it carries along is the one that stands in the list of members
(`visitMembers_run`). Since a class nests in the class around it, that its record is grown from what
it declares is shown by induction on the size of its node.

## Main definitions

* `fileMember`: Filing one member of a class body.
* `visitMember`: Reading one child of a class body.
* `ReadsFunction`: A declaration that is read as the record of a function.

## Theorems

* `callable_spec`: The name and the return type of a function.
* `visitMember_cases`: What one child of a class body does.
* `visitMembers_run`: What filing one member keeps, the walk keeps.
* `parseClass_grown`: The record of a class has grown from what the class declares.
-/

namespace HeaderBinding

namespace Extraction

open Syntax

theorem isSome_of_mapM {α β : Type} {f : α → Extract β} {item : Option α} {found : Option β}
    (h : item.mapM f = .ok found) : found.isSome = item.isSome := by
  cases item with
  | none =>
      rw [Option.mapM_none, pure_eq_ok] at h
      rw [← h]
      rfl
  | some item =>
      rw [Option.mapM_some] at h
      simp only [map_eq_pure_bind, bind_eq_ok, pure_eq_ok] at h
      rcases h with ⟨b, _, rfl⟩
      rfl

section Members

variable {declared defined : String → String → Prop} {owner : String} {c c' : ClassRecord}
  {code : List Char}

theorem callable_spec {declaration : Located} {function : Node} {suffix : List Char}
    {name : String} {m : Method} (h : callable code declaration function suffix name = .ok m) :
    m.name = name ∧ m.returnType.isSome = (declaration.node.child? "type").isSome := by
  unfold callable at h
  split at h
  all_goals
    simp only [bind_eq_ok, pure_eq_ok] at h
    rcases h with ⟨args, _, type, htype, _, _, _, _, _, _, _, _, _, _, rfl⟩
    exact ⟨rfl, isSome_of_mapM htype⟩

variable (code) in
/-- A declaration is read as the record of the function that its declarator leads to. -/
def ReadsFunction (declaration : Located) (function : Node) (name : String) (m : Method) : Prop :=
  ∃ suffix, (declaration.node.child? "declarator").bind (fun d => functionDeclarator? d.node) =
      some (function, suffix) ∧ callable code declaration function suffix name = .ok m

theorem memberFunction_grown {declaration : Located} {function : Node} {suffix : List Char}
    (hdeclared : ∀ name, function.child? "declarator" = some name →
      isCallableName name.node.kind = true →
      declared owner (String.ofList (normalize (spelled code name.node))))
    (hc : Grown declared defined owner c)
    (h : memberFunction code declaration function suffix c = .ok c') :
    Grown declared defined owner c' := by
  unfold memberFunction at h
  cases hname : function.child? "declarator" with
  | none =>
      rw [hname] at h
      exact pure_eq_ok.mp h ▸ hc
  | some name =>
      simp only [hname] at h
      by_cases hcallable : isCallableName name.node.kind = true
      · simp only [hcallable, Bool.not_true, Bool.false_eq_true, if_false, bind_eq_ok] at h
        rcases h with ⟨text, htext, m, hm, h⟩
        have hfiled := hdeclared name hname hcallable
        rw [spelled_eq htext, ← (callable_spec hm).1] at hfiled
        -- Behind destructors, the return type tells constructors from everything else.
        split at h
        · exact pure_eq_ok.mp h ▸ hc.destructor m hfiled
        · rw [pure_eq_ok] at h
          subst h
          cases hreturn : m.returnType with
          | none => exact addConstructor_grown hc m hfiled hreturn
          | some type =>
              exact addReturning_grown hc m hfiled (by rw [hreturn]; rfl)
      · rw [if_pos (by rw [eq_false_of_ne_true hcallable]; rfl)] at h
        exact pure_eq_ok.mp h ▸ hc

theorem declaredMember_grown {n : Located} {access : Access}
    (hdeclared : access = .isPublic → ∀ name, functionName? code n.node = some name →
      declared owner name)
    (hc : Grown declared defined owner c) (h : declaredMember code n access c = .ok c') :
    Grown declared defined owner c' := by
  unfold declaredMember at h
  cases hdeclarator : n.node.child? "declarator" with
  | none =>
      rw [hdeclarator] at h
      exact pure_eq_ok.mp h ▸ hc
  | some declarator =>
      rcases hfunction : functionDeclarator? declarator.node with _ | ⟨function, suffix⟩
      · -- What declares no function is a data member.
        simp only [hdeclarator, hfunction] at h
        split at h
        · exact pure_eq_ok.mp h ▸ hc
        · split at h
          · simp only [bind_eq_ok, pure_eq_ok] at h
            rcases h with ⟨_, _, _, _, _, _, rfl⟩
            exact hc.field _
          · exact pure_eq_ok.mp h ▸ hc
      · simp only [hdeclarator, hfunction] at h
        by_cases hpublic : access = .isPublic
        · rw [if_pos (beq_iff_eq.mpr hpublic)] at h
          refine memberFunction_grown (fun name hname hcallable => ?_) hc h
          refine hdeclared hpublic _ ?_
          simp only [functionName?, declaredFunction?, hdeclarator, hfunction, hname, hcallable,
            Option.bind_some, Option.map_some, Option.filter_some, if_true]
        · -- Of a function that is not public no more is kept than the mark of an abstract class.
          rw [if_neg (fun hbeq => hpublic (beq_iff_eq.mp hbeq)), bind_eq_ok] at h
          rcases h with ⟨isPure, _, h⟩
          split at h
          · exact pure_eq_ok.mp h ▸ hc.isAbstract
          · exact pure_eq_ok.mp h ▸ hc

theorem memberEnum_grown {n : Located} {access : Access} (hc : Grown declared defined owner c)
    (h : memberEnum code n access c = .ok c') : Grown declared defined owner c' := by
  unfold memberEnum at h
  split at h
  · exact pure_eq_ok.mp h ▸ hc
  · rw [bind_eq_ok] at h
    rcases h with ⟨found, _, h⟩
    cases found with
    | none => exact pure_eq_ok.mp h ▸ hc
    | some e => exact pure_eq_ok.mp h ▸ hc.enum e

/-- A nested class without a body is filed as a bare record. -/
theorem innerClass_grown {n : Located}
    (hinner : ∀ d, parseClass code n owner = .ok (some d) → Grown declared defined d.name d)
    (hc : Grown declared defined owner c) (h : innerClass code n c = .ok c') :
    Grown declared defined owner c' := by
  unfold innerClass at h
  rw [hc.name_eq, bind_eq_ok] at h
  rcases h with ⟨found, hfound, h⟩
  cases found with
  | some d => exact pure_eq_ok.mp h ▸ hc.inner (hinner d hfound)
  | none =>
      cases hname : n.node.child? "name" with
      | none =>
          simp only [hname] at h
          exact pure_eq_ok.mp h ▸ hc
      | some name =>
          simp only [hname, bind_eq_ok] at h
          rcases h with ⟨text, _, h⟩
          exact pure_eq_ok.mp h ▸ hc.inner (Grown.bare _ _ _)

/-- File one member of a class body. -/
def fileMember (code : List Char) (n : Located) (access : Access) (c : ClassRecord) :
    Extract ClassRecord :=
  match MemberItem.ofKind n.node.kind with
  | .member => do declaredMember code n access (← memberType code n access c)
  | .typedef => return memberTypedef (← typedef? code n "") c
  | .aliasType => return memberTypedef (← alias? code n "") c
  | .classType => innerClass code n c
  | .enum => memberEnum code n access c
  | _ => return c

theorem functionDeclarator?_of_kind {n : Node} (h : n.kind = "function_declarator") :
    functionDeclarator? n = some (n, []) := by
  rw [functionDeclarator?, if_pos (beq_iff_eq.mpr h)]

/-- A member with a class as its type. -/
theorem memberType_of_class {n type : Located} {access : Access}
    (htype : n.node.child? "type" = some type) (hclass : isClassKind type.node.kind = true) :
    memberType code n access c = innerClass code type c := by
  rw [memberType]
  split
  · next hnone =>
    exact absurd (hnone.symm.trans htype) (by simp only [reduceCtorEq, not_false_eq_true])
  · next found hfound =>
    obtain rfl := Option.some.inj (hfound.symm.trans htype)
    rw [if_pos hclass]

/-- A member function that is not public is passed over, unless it is pure virtual. -/
theorem fileMember_of_not_public {n type declarator : Located} {access : Access}
    (hkind : MemberItem.ofKind n.node.kind = .member)
    (htype : n.node.child? "type" = some type) (hclass : isClassKind type.node.kind = false)
    (henum : isEnumKind type.node.kind = false)
    (hdeclarator : n.node.child? "declarator" = some declarator)
    (hfunction : declarator.node.kind = "function_declarator") (haccess : access ≠ .isPublic)
    (hpure : isPureVirtual code n.node declarator.node = .ok false) :
    fileMember code n access c = .ok c := by
  simp only [fileMember, hkind, bind_eq_ok]
  refine ⟨c, ?_, ?_⟩
  · rw [memberType]
    split
    · rfl
    · next found hfound =>
      obtain rfl := Option.some.inj (hfound.symm.trans htype)
      rw [hclass, henum]
      rfl
  · have hnot : ¬ (access == .isPublic) = true := fun h => haccess (beq_iff_eq.mp h)
    simp only [declaredMember, hdeclarator, functionDeclarator?_of_kind hfunction, if_neg hnot,
      hpure]
    rfl

theorem fileMember_grown {n : Located} {access : Access}
    (hdeclared : access = .isPublic → ∀ name, functionName? code n.node = some name →
      declared owner name)
    (hinner : ∀ inner : Located, nestedClass? n.node = some inner.node → ∀ d,
      parseClass code inner owner = .ok (some d) → Grown declared defined d.name d)
    (hc : Grown declared defined owner c) (h : fileMember code n access c = .ok c') :
    Grown declared defined owner c' := by
  unfold fileMember at h
  unfold nestedClass? at hinner
  cases hkind : MemberItem.ofKind n.node.kind with
  | access | block | other =>
      rw [hkind] at h
      exact pure_eq_ok.mp h ▸ hc
  | enum =>
      rw [hkind] at h
      exact memberEnum_grown hc h
  | typedef | aliasType =>
      rw [hkind] at h
      simp only [bind_eq_ok, pure_eq_ok] at h
      rcases h with ⟨typedef, _, rfl⟩
      exact memberTypedef_grown hc typedef
  | classType =>
      rw [hkind] at h hinner
      exact innerClass_grown (hinner n rfl) hc h
  | member =>
      simp only [hkind, bind_eq_ok] at h hinner
      rcases h with ⟨middle, htype, h⟩
      refine declaredMember_grown hdeclared ?_ h
      -- What is left is the type of the member, which may define a class or an enumeration.
      unfold memberType at htype
      split at htype
      · exact pure_eq_ok.mp htype ▸ hc
      · next type hchild =>
        split at htype
        · next hclass =>
          refine innerClass_grown (hinner type ?_) hc htype
          rw [hchild, Option.map_some, Option.filter_some, if_pos hclass]
        · split at htype
          · exact memberEnum_grown hc htype
          · exact pure_eq_ok.mp htype ▸ hc

end Members

section Walk

variable {code : List Char} {c c' : ClassRecord} {access access' : Access}
  {before nodes : List Node}

/-- Read one child of a class body. -/
def visitMember (code : List Char) (before : List Node) (child : Node)
    (state : ClassRecord × Access) : Extract (ClassRecord × Access) :=
  match MemberItem.ofKind child.kind with
  | .access => return (state.1, .ofKeyword (← textOf code child))
  | .block => visitMembers code [] child.children state
  | _ => return (← fileMember code ⟨child, before⟩ state.2 state.1, state.2)

theorem visitMembers_cons (child : Node) (state : ClassRecord × Access) :
    visitMembers code before (child :: nodes) state =
      visitMember code before child state >>= visitMembers code (child :: before) nodes := by
  rw [visitMembers]
  unfold visitMember fileMember
  cases MemberItem.ofKind child.kind
  all_goals simp only [bind_assoc, pure_bind]

/-- What one child of a class body does: it sets the access, it opens a block, or it is a member of
    the access in force and is filed. -/
theorem visitMember_cases {child : Node}
    (h : visitMember code before child (c, access) = .ok (c', access')) :
    (c' = c ∧ ∀ rest, sections code access (child :: rest) = sections code access' rest) ∨
    (visitMembers code [] child.children (c, access) = .ok (c', access') ∧
      ∀ rest, sections code access (child :: rest) =
        sections code access (child.children ++ rest)) ∨
    (access' = access ∧ fileMember code ⟨child, before⟩ access c = .ok c' ∧
      ∀ rest, sections code access (child :: rest) =
        (access, child) :: sections code access rest) := by
  unfold visitMember at h
  cases hkind : MemberItem.ofKind child.kind with
  | access =>
      simp only [hkind, bind_eq_ok, pure_eq_ok, Prod.mk.injEq] at h
      rcases h with ⟨text, htext, rfl, rfl⟩
      refine Or.inl ⟨rfl, fun rest => ?_⟩
      rw [sections, hkind, spelled_eq htext]
  | block =>
      rw [hkind] at h
      refine Or.inr (Or.inl ⟨h, fun rest => ?_⟩)
      rw [sections, hkind]
  | _ =>
      simp only [hkind, bind_eq_ok, pure_eq_ok, Prod.mk.injEq] at h
      rcases h with ⟨filed, hfile, rfl, rfl⟩
      refine Or.inr (Or.inr ⟨rfl, hfile, fun rest => ?_⟩)
      rw [sections, hkind]

/-- The access that a walk through a class body ends with is the one that holds for whatever
    follows, and what filing one member keeps, the walk keeps. -/
theorem visitMembers_run (h : visitMembers code before nodes (c, access) = .ok (c', access')) :
    (∀ rest, sections code access (nodes ++ rest) =
      sections code access nodes ++ sections code access' rest) ∧
    ∀ Inv : ClassRecord → Prop, Inv c →
      (∀ entry ∈ sections code access nodes, ∀ before c c', Inv c →
        fileMember code ⟨entry.2, before⟩ entry.1 c = .ok c' → Inv c') → Inv c' := by
  -- Induction on the size, since a block is walked through before the nodes behind it.
  induction hsize : sizeOf nodes using Nat.strongRecOn
    generalizing nodes before c access c' access' with
  | ind size ih =>
      subst hsize
      cases nodes with
      | nil =>
          rw [visitMembers, pure_eq_ok, Prod.mk.injEq] at h
          rcases h with ⟨rfl, rfl⟩
          refine ⟨fun rest => ?_, fun _ hc _ => hc⟩
          rw [sections, List.nil_append, List.nil_append]
      | cons child nodes =>
          have hnodes : sizeOf nodes < sizeOf (child :: nodes) := by
            rw [List.cons.sizeOf_spec]
            omega
          have hchildren : sizeOf child.children < sizeOf (child :: nodes) := by
            have := child.sizeOf_children_lt
            rw [List.cons.sizeOf_spec]
            omega
          rw [visitMembers_cons, bind_eq_ok] at h
          rcases h with ⟨⟨c₁, access₁⟩, hchild, hrest⟩
          rcases visitMember_cases hchild with hset | hblock | hmember
          · rcases hset with ⟨rfl, hcons⟩
            rcases ih _ hnodes hrest rfl with ⟨happend, hrun⟩
            rw [hcons]
            refine ⟨fun rest => ?_, hrun⟩
            rw [List.cons_append, hcons, happend]
          · rcases hblock with ⟨hblock, hcons⟩
            rcases ih _ hchildren hblock rfl with ⟨hinside, hrun₁⟩
            rcases ih _ hnodes hrest rfl with ⟨happend, hrun₂⟩
            rw [hcons, hinside]
            refine ⟨fun rest => ?_, fun Inv hc hstep => ?_⟩
            · rw [List.cons_append, hcons, hinside, happend, List.append_assoc]
            · rw [List.forall_mem_append] at hstep
              exact hrun₂ Inv (hrun₁ Inv hc hstep.1) hstep.2
          · rcases hmember with ⟨rfl, hfile, hcons⟩
            rcases ih _ hnodes hrest rfl with ⟨happend, hrun⟩
            rw [hcons]
            refine ⟨fun rest => ?_, fun Inv hc hstep => ?_⟩
            · rw [List.cons_append, hcons, happend, List.cons_append]
            · rw [List.forall_mem_cons] at hstep
              exact hrun Inv (hstep.1 before c c₁ hc hfile) hstep.2

end Walk

section Classes

variable {code : List Char} {tree : Node} {defined : String → String → Prop} {c : ClassRecord}

/-- A class is read from a bare record of its name by a walk through its body. -/
theorem parseClass_spec {n : Located} {scope : String}
    (h : parseClass code n scope = .ok (some c)) :
    ∃ name comment superclasses access body, definedName? code scope n.node = some name ∧
      n.node.child? "body" = some body ∧
      visitMembers code [] body.node.children
        ({ name, comment, superclasses }, .ofKind n.node.kind) = .ok (c, access) := by
  unfold parseClass at h
  split at h
  · exact absurd (pure_eq_ok.mp h) (by simp only [reduceCtorEq, not_false_eq_true])
  · next name hname =>
    split at h
    · exact absurd (pure_eq_ok.mp h) (by simp only [reduceCtorEq, not_false_eq_true])
    · next hspecial =>
      split at h
      · exact absurd (pure_eq_ok.mp h) (by simp only [reduceCtorEq, not_false_eq_true])
      · next body hbody =>
        simp only [bind_eq_ok, pure_eq_ok, nameOf] at h
        rcases h with ⟨spelling, ⟨text, htext, rfl⟩, comment, _, superclasses, _, ⟨d, access⟩,
          hwalk, hd⟩
        simp only [Option.some.injEq] at hd
        subst hd
        refine ⟨_, comment, superclasses, access, body, ?_, hbody, hwalk⟩
        simp only [definedName?, hname, hbody, spelled_eq htext]
        rw [if_neg hspecial]

/-- A class is read if its name, what stands in front of the body and the body can be. -/
theorem parseClass_eq_ok {n name body : Located} {scope spelling : String}
    {comment : Option String} {superclasses : List String} {access : Access}
    (hname : n.node.child? "name" = some name) (hkind : name.node.kind ≠ "template_type")
    (hbody : n.node.child? "body" = some body) (hspelling : nameOf code name.node = .ok spelling)
    (hcomment : docComment code n = .ok comment)
    (hbases : baseClasses code n.node = .ok superclasses)
    (hwalk : visitMembers code [] body.node.children
      ({ name := qualified scope spelling, comment, superclasses }, .ofKind n.node.kind) =
        .ok (c, access)) : parseClass code n scope = .ok (some c) := by
  rw [parseClass]
  simp only [hname, if_neg (fun h => hkind (beq_iff_eq.mp h))]
  split
  · next hnone =>
    exact absurd (hnone.symm.trans hbody) (by simp only [reduceCtorEq, not_false_eq_true])
  · next found hfound =>
    obtain rfl := Option.some.inj (hfound.symm.trans hbody)
    simp only [bind_eq_ok]
    exact ⟨spelling, hspelling, comment, hcomment, superclasses, hbases, (c, access), hwalk, rfl⟩

/-- What gives no record defines no class. -/
theorem definedName?_of_parseClass_none {n : Located} {scope : String}
    (h : parseClass code n scope = .ok none) : definedName? code scope n.node = none := by
  unfold parseClass at h
  unfold definedName?
  split at h
  · next hname => rw [hname]
  · next name hname =>
    split at h
    · next hspecial =>
      rw [hname]
      cases n.node.child? "body" with
      | none => rfl
      | some body => exact if_pos hspecial
    · split at h
      · next hbody => rw [hname, hbody]
      · simp only [bind_eq_ok, pure_eq_ok] at h
        rcases h with ⟨_, _, _, _, _, _, _, _, h⟩
        exact absurd h (by simp only [reduceCtorEq, not_false_eq_true])

/-- The record of a class bears the name of the class and has grown from what the bodies of the
    class declare publicly. -/
theorem parseClass_grown {n : Located} {scope : String}
    (h : parseClass code n scope = .ok (some c))
    (hdefines : ∀ name, definedName? code scope n.node = some name →
      DefinesClass code tree name n.node) :
    definedName? code scope n.node = some c.name ∧
      Grown (Declares code tree .isPublic) defined c.name c := by
  induction hsize : sizeOf n.node using Nat.strongRecOn generalizing n scope c with
  | ind size ih =>
      subst hsize
      rcases parseClass_spec h with ⟨name, comment, superclasses, access, body, hname, hbody, hwalk⟩
      -- The invariant of the walk is that the record has grown from what the class declares.
      have hn := hdefines name hname
      have hmembers : bodyMembers code n.node =
          sections code (.ofKind n.node.kind) body.node.children := by
        rw [bodyMembers, hbody]
      have hgrown := (visitMembers_run hwalk).2 (Grown (Declares code tree .isPublic) defined name)
        (Grown.bare name comment superclasses) (fun entry hentry before d d' hd hfile => ?_)
      · exact ⟨hgrown.name_eq.symm ▸ hname, hgrown.self⟩
      · rw [← hmembers] at hentry
        refine fileMember_grown (fun hpublic f hf => ?_) (fun inner hinner e he => ?_) hd hfile
        · exact ⟨n.node, entry.2, hn, hpublic ▸ hentry, hf⟩
        · refine (ih (sizeOf inner.node) ?_ he (fun f hf => ?_) rfl).2
          · exact Nat.lt_of_le_of_lt (sizeOf_le_of_nestedClass? _ _ hinner)
              (sizeOf_lt_of_mem_bodyMembers _ _ hentry)
          · exact DefinesClass.nested name n.node entry.2 inner.node entry.1 f hn hentry hinner hf

end Classes

end Extraction

end HeaderBinding
