import HeaderBinding.Extraction.ClassBody
import HeaderBinding.Proofs.Record.Folding

/-!
# Growing Class Records

Every record of a class comes about by filing one declaration after the other. `Grown` lists the
ways in which this is done, with what is known of the member that is filed. So a property of the
records of a header is shown by induction on `Grown`, without a look at the walk that files them.

The induction is done once. A property that each way of filing keeps (`KeptByFiling`) holds of a
grown record and of all records nested in it, and nested classes are filed under their own names
besides (`Grown.everywhere`). The names have to be part of it, because nested classes are folded
into each other by the name they are filed under.

## Main definitions

* `Grown`: Records that come about by filing declarations.
* `ClassRecord.Keyed`: Nested classes are filed under their own names.
* `KeptByFiling`: A property that each way of filing keeps.

## Theorems

* `Grown.name_eq`: A record bears the name of its class.
* `Grown.everywhere`: What filing keeps, holds at every depth.
* `addConstructor_grown`, `addReturning_grown`: Filing a member without and with a return type.
-/

namespace HeaderBinding

namespace Extraction

open Syntax

variable (declared defined : String → String → Prop)

/-- Records of a class that come about by filing what the class declares and what is defined
    outside of it. -/
inductive Grown : String → ClassRecord → Prop
  | bare (name : String) (comment : Option String) (superclasses : List String) :
      Grown name { name, comment, superclasses }
  | path {owner : String} {c : ClassRecord} (h : Grown owner c) (path : Option Path) :
      Grown owner { c with path }
  | isAbstract {owner : String} {c : ClassRecord} (h : Grown owner c) :
      Grown owner { c with isAbstract := true }
  | field {owner : String} {c : ClassRecord} (h : Grown owner c) (field : DataMember) :
      Grown owner { c with fields := c.fields ++ [field] }
  | enum {owner : String} {c : ClassRecord} (h : Grown owner c) (e : Enumeration) :
      Grown owner (c.withEnum e)
  | typedef {owner : String} {c : ClassRecord} (h : Grown owner c) (t : Typedef) :
      Grown owner (c.withTypedef t)
  | destructor {owner : String} {c : ClassRecord} (h : Grown owner c) (m : Method)
      (hdeclared : declared owner m.name) :
      Grown owner { c with destructors := c.destructors ++ [{ m with returnType := none }] }
  | constructor {owner : String} {c : ClassRecord} (h : Grown owner c) (m : Method)
      (hdeclared : declared owner m.name) (hreturn : m.returnType = none)
      (hname : withoutTemplateArgs m.name.toList = bareName c)
      (hrvalue : m.hasRvalueArguments = false)
      (hnew : m.fullName ∉ c.constructors.map (·.fullName)) : Grown owner (c.withConstructor m)
  | operator {owner : String} {c : ClassRecord} (h : Grown owner c) (m : Method)
      (hdeclared : declared owner m.name) :
      Grown owner { c with operators := c.operators ++ [m] }
  | method {owner : String} {c : ClassRecord} (h : Grown owner c) (m : Method)
      (hdeclared : declared owner m.name ∨ defined owner m.name)
      (hreturn : m.returnType.isSome) (hrvalue : m.hasRvalueArguments = false) :
      Grown owner (c.addMethod m)
  | inner {owner other : String} {c d : ClassRecord} (h : Grown owner c) (hd : Grown other d) :
      Grown owner (addInnerClass c d)
  | extend {owner : String} {c d : ClassRecord} (h : Grown owner c) (hd : Grown owner d) :
      Grown owner (c.extend d)

variable {declared defined} {owner : String} {c : ClassRecord}

theorem Grown.name_eq (h : Grown declared defined owner c) : c.name = owner := by
  induction h with
  | bare => rfl
  | path _ _ ih | isAbstract _ ih | field _ _ ih | enum _ _ ih | typedef _ _ ih
  | destructor _ _ _ ih | constructor _ _ _ _ _ _ _ ih | operator _ _ _ ih | inner _ _ ih _ =>
      exact ih
  | method _ m _ _ _ ih =>
      rw [ClassRecord.addMethod, apply_ite ClassRecord.name, ite_self]
      exact ih
  | extend _ _ ih _ => exact (ClassRecord.name_extend _ _).trans ih

/-- A record bears the name of its class. -/
theorem Grown.self (h : Grown declared defined owner c) : Grown declared defined c.name c := by
  rw [h.name_eq]
  exact h

theorem addConstructor_grown (h : Grown declared defined owner c) (m : Method)
    (hdeclared : declared owner m.name) (hreturn : m.returnType = none) :
    Grown declared defined owner (addConstructor c m) := by
  unfold addConstructor
  split
  · next hcond =>
    simp only [Bool.and_eq_true, beq_iff_eq, Bool.not_eq_true', List.any_eq_false] at hcond
    rcases hcond with ⟨⟨hname, hrvalue⟩, hnew⟩
    refine h.constructor m hdeclared hreturn hname hrvalue (fun hmem => ?_)
    rcases List.mem_map.mp hmem with ⟨other, hother, hsame⟩
    exact hnew other hother hsame
  · exact h

theorem addReturning_grown (h : Grown declared defined owner c) (m : Method)
    (hdeclared : declared owner m.name) (hreturn : m.returnType.isSome) :
    Grown declared defined owner (addReturning c m) := by
  -- The mark of an abstract class is set first, whatever the method is.
  have hmarked : Grown declared defined owner
      (if m.isPureVirtual then { c with isAbstract := true } else c) := by
    split
    · exact h.isAbstract
    · exact h
  unfold addReturning
  generalize (if m.isPureVirtual then { c with isAbstract := true } else c) = c at hmarked ⊢
  by_cases hoperator : "operator".toList.isPrefixOf m.name.toList = true
  · rw [if_pos hoperator]
    exact hmarked.operator m hdeclared
  · rw [if_neg hoperator]
    by_cases hrvalue : m.hasRvalueArguments = true
    · rw [if_pos hrvalue]
      exact hmarked
    · rw [if_neg hrvalue]
      exact hmarked.method m (Or.inl hdeclared) hreturn (eq_false_of_ne_true hrvalue)

theorem memberTypedef_grown (h : Grown declared defined owner c) (typedef : Option Typedef) :
    Grown declared defined owner (memberTypedef typedef c) := by
  cases typedef with
  | none => exact h
  | some t => exact h.typedef t

variable (declared defined) in
/-- A property of records that is kept whatever is filed. Of nested classes only the names they are
    filed under matter, since the property is about one record and not about those nested in it. -/
structure KeptByFiling (P : ClassRecord → Prop) : Prop where
  bare : ∀ name comment superclasses, P { name, comment, superclasses }
  path : ∀ c path, P c → P { c with path }
  isAbstract : ∀ c, P c → P { c with isAbstract := true }
  field : ∀ c field, P c → P { c with fields := c.fields ++ [field] }
  enum : ∀ c e, P c → P (c.withEnum e)
  typedef : ∀ c t, P c → P (c.withTypedef t)
  destructor : ∀ (c : ClassRecord) (m : Method), P c → declared c.name m.name →
    P { c with destructors := c.destructors ++ [{ m with returnType := none }] }
  constructor : ∀ (c : ClassRecord) (m : Method), P c → declared c.name m.name →
    m.returnType = none → withoutTemplateArgs m.name.toList = bareName c →
    m.hasRvalueArguments = false → m.fullName ∉ c.constructors.map (·.fullName) →
    P (c.withConstructor m)
  operator : ∀ (c : ClassRecord) (m : Method), P c → declared c.name m.name →
    P { c with operators := c.operators ++ [m] }
  method : ∀ (c : ClassRecord) (m : Method), P c →
    declared c.name m.name ∨ defined c.name m.name → m.returnType.isSome →
    m.hasRvalueArguments = false → P (c.addMethod m)
  inner : ∀ c d, P c → (addInnerClass c d).Keyed → P (addInnerClass c d)
  extend : ∀ c d, P c → P d → d.name = c.name → (c.extend d).Keyed → P (c.extend d)

/-- Filing a nested class keeps a property everywhere if folding keeps it and it holds at the
    top. -/
theorem addInnerClass_everywhere {P : ClassRecord → Prop} {d : ClassRecord}
    (hextend : ∀ c d, P c → P d → d.name = c.name → (c.extend d).Keyed → P (c.extend d))
    (hhere : (addInnerClass c d).Keyed → P (addInnerClass c d))
    (hc : c.Everywhere fun c => c.Keyed ∧ P c) (hd : d.Everywhere fun c => c.Keyed ∧ P c) :
    (addInnerClass c d).Everywhere fun c => c.Keyed ∧ P c := by
  have hinner : ∀ entry ∈ (addInnerClass c d).innerClasses.entries,
      entry.1 = entry.2.name ∧ entry.2.Everywhere fun c => c.Keyed ∧ P c := by
    refine c.innerClasses.forall_insert _ _ (fun entry hentry => ?_) ?_
    · exact ⟨hc.here.1 entry hentry, hc.nested entry hentry⟩
    · rcases hfind : c.innerClasses.find? d.name with _ | first
      · exact ⟨rfl, hd⟩
      · have hfirst := c.innerClasses.mem_of_find? d.name first hfind
        have hname : d.name = first.name := hc.here.1 _ hfirst
        exact ⟨hname.trans (first.name_extend d).symm,
          ClassRecord.Everywhere.extend hextend (hc.nested _ hfirst) hd hname⟩
  have hkeyed : (addInnerClass c d).Keyed := fun entry hentry => (hinner entry hentry).1
  exact ClassRecord.Everywhere.mk _ ⟨hkeyed, hhere hkeyed⟩
    fun entry hentry => (hinner entry hentry).2

/-- What each way of filing keeps, holds of a grown record and of all records nested in it. -/
theorem Grown.everywhere {P : ClassRecord → Prop} (hP : KeptByFiling declared defined P)
    (h : Grown declared defined owner c) : c.Everywhere fun c => c.Keyed ∧ P c := by
  induction h with
  | bare name comment superclasses =>
      refine ClassRecord.Everywhere.mk _ ⟨?_, hP.bare name comment superclasses⟩ ?_
      all_goals exact fun _ h => absurd h List.not_mem_nil
  | path _ path ih => exact ih.of_innerClasses_eq ⟨ih.here.1, hP.path _ path ih.here.2⟩ rfl
  | isAbstract _ ih => exact ih.of_innerClasses_eq ⟨ih.here.1, hP.isAbstract _ ih.here.2⟩ rfl
  | field _ field ih => exact ih.of_innerClasses_eq ⟨ih.here.1, hP.field _ field ih.here.2⟩ rfl
  | enum _ e ih => exact ih.of_innerClasses_eq ⟨ih.here.1, hP.enum _ e ih.here.2⟩ rfl
  | typedef _ t ih => exact ih.of_innerClasses_eq ⟨ih.here.1, hP.typedef _ t ih.here.2⟩ rfl
  | destructor h m hdeclared ih =>
      rw [← h.name_eq] at hdeclared
      exact ih.of_innerClasses_eq ⟨ih.here.1, hP.destructor _ m ih.here.2 hdeclared⟩ rfl
  | constructor h m hdeclared hreturn hname hrvalue hnew ih =>
      rw [← h.name_eq] at hdeclared
      exact ih.of_innerClasses_eq
        ⟨ih.here.1, hP.constructor _ m ih.here.2 hdeclared hreturn hname hrvalue hnew⟩ rfl
  | operator h m hdeclared ih =>
      rw [← h.name_eq] at hdeclared
      exact ih.of_innerClasses_eq ⟨ih.here.1, hP.operator _ m ih.here.2 hdeclared⟩ rfl
  | @method _ c h m hdeclared hreturn hrvalue ih =>
      rw [← h.name_eq] at hdeclared
      have hinner : (c.addMethod m).innerClasses = c.innerClasses := by
        rw [ClassRecord.addMethod, apply_ite ClassRecord.innerClasses, ite_self]
      refine ih.of_innerClasses_eq ⟨?_, ?_⟩ hinner
      · rw [ClassRecord.Keyed, hinner]
        exact ih.here.1
      · exact hP.method c m ih.here.2 hdeclared hreturn hrvalue
  | inner _ _ ih ihd =>
      exact addInnerClass_everywhere hP.extend (hP.inner _ _ ih.here.2) ih ihd
  | extend h hd ih ihd =>
      exact ClassRecord.Everywhere.extend hP.extend ih ihd (hd.name_eq.trans h.name_eq.symm)

end Extraction

end HeaderBinding
