import HeaderBinding.Proofs.Extraction.Declarators
import HeaderBinding.Proofs.Qualification.Scopes

/-!
# Inner Classes

Which classes are recorded inside a class.

A class that stands in the body of another, or is the type of one of its members, is filed under its
name, whether it has a body or not. So the names of the inner classes are those of all classes that
the members of the body are or have as their types, and nothing but their names matters
(`mem_innerClasses`).

Without a body this is meant for a class that is only declared, `struct B;`, which names a nested
type as well. It is also done for a class that is spelled out where it is used, as in `struct B b;`,
and there it declares nothing. `nestedTypes` are the names without those. In a class where no member
spells out a class in its type the two are the same, and so the words that are searched for in
signatures are those of the nested types (`parseClass_innerClasses`). In any other class a name is
taken for that of a nested type and is qualified in every signature, although the class does not
declare it (`parseClass_innerClasses_used`).

## Main definitions

* `nestedName?`: The name of the class that a member is or has as its type.
* `DeclaresType`: A member declares the class, and does not only use it.
* `nestedTypes`, `usedTypes`: The names of the classes that are declared in a class, and of those
  that are only used there.

## Theorems

* `ClassRecord.mem_innerClasses_fileAll`: The inner classes that the things filed leave behind.
* `innerNames_memberFilings`: A member files a class under one name or none.
* `mem_innerClasses`: The names of the inner classes.
* `parseClass_innerClasses`: The inner classes are the nested types, where none is only used.
-/

namespace HeaderBinding

/-- The name of the class that is filed, if it is one. -/
def MemberFiling.innerName? : MemberFiling → Option String
  | inner d => some d.name
  | _ => none

namespace ClassRecord

/-- Filing one thing adds the name of the class that it is, if it is one. -/
theorem mem_innerClasses_file (c : ClassRecord) (f : MemberFiling) (name : String) :
    name ∈ (c.file f).innerClasses.keys ↔
      name ∈ c.innerClasses.keys ∨ f.innerName? = some name := by
  cases f with
  | inner d =>
      refine (Dict.mem_keys_insertEntry d.name _ c.innerClasses.entries name).trans ?_
      -- An entry under the name is put in or replaced; either way the names are the old ones and
      -- this.
      rw [or_comm, eq_comm]
      exact or_congr_right (Option.some_inj (a := d.name)).symm
  | constructor m =>
      have hkept : (Extraction.addConstructor c m).innerClasses = c.innerClasses := by
        rw [Extraction.addConstructor, apply_ite innerClasses]
        exact ite_self _
      change name ∈ (Extraction.addConstructor c m).innerClasses.keys ↔ _
      rw [hkept]
      exact (or_iff_left (Option.some_ne_none name).symm).symm
  | method m =>
      have hkept : (c.addMethod m).innerClasses = c.innerClasses := by
        rw [addMethod, apply_ite innerClasses]
        exact ite_self _
      change name ∈ (c.addMethod m).innerClasses.keys ↔ _
      rw [hkept]
      exact (or_iff_left (Option.some_ne_none name).symm).symm
  | _ => exact (or_iff_left (Option.some_ne_none name).symm).symm

/-- The names of the inner classes are those that were there and those that are filed. -/
theorem mem_innerClasses_fileAll (c : ClassRecord) (filings : List MemberFiling) (name : String) :
    name ∈ (c.fileAll filings).innerClasses.keys ↔
      name ∈ c.innerClasses.keys ∨ name ∈ filings.filterMap (·.innerName?) := by
  unfold fileAll
  induction filings generalizing c with
  | nil => rw [List.foldl_nil, List.filterMap_nil, or_iff_left List.not_mem_nil]
  | cons f filings ih =>
      rw [List.foldl_cons, ih, mem_innerClasses_file, or_assoc]
      simp only [List.mem_filterMap, List.exists_mem_cons_iff]

end ClassRecord

namespace Extraction

open Syntax

section Names

variable (code : List Char) (owner : String)

/-- The name of a class inside another, which it has with or without a body. -/
def innerName? (n : Node) : Option String :=
  (n.child? "name").map fun name => qualified owner (String.ofList (spelled code name.node))

/-- The name of the class that a member is or has as its type. -/
def nestedName? (item : Node) : Option String :=
  (nestedClass? item).bind (innerName? code owner)

/-- A member declares the class that it is or has as its type: the class has a body, or there is
    nothing else to the member, and the class is only declared. -/
def DeclaresType (item : Node) : Prop :=
  ((nestedClass? item).bind (·.child? "body")).isSome = true ∨
    (MemberItem.ofKind item.kind = .member ∧ (item.child? "declarator").isNone = true)

instance decidableDeclaresType (item : Node) : Decidable (DeclaresType item) :=
  inferInstanceAs (Decidable (_ ∨ _ ∧ _))

/-- The names of the classes that are declared in a class of some name. -/
def nestedTypes (n : Node) : List String :=
  ((bodyMembers code n).filter fun entry => DeclaresType entry.2).filterMap
    (nestedName? code owner ·.2)

/-- The names of the classes that the members of a class of some name use as a type without
    declaring them. -/
def usedTypes (n : Node) : List String :=
  ((bodyMembers code n).filter fun entry => ¬ DeclaresType entry.2).filterMap
    (nestedName? code owner ·.2)

end Names

section Filings

variable {code : List Char} {n : Located} {access : Access} {owner : String}
  {filings : List MemberFiling}

/-- A class inside another files its name, with or without a body. -/
theorem innerNames_innerFilings (h : innerFilings code n owner = .ok filings) :
    filings.filterMap (·.innerName?) = (innerName? code owner n.node).toList := by
  unfold innerFilings at h
  unfold innerName?
  rw [bind_eq_ok] at h
  rcases h with ⟨found, hfound, h⟩
  -- With a body the record bears the name; without one the name is all that is read.
  cases found with
  | some d =>
      rcases parseClass_files hfound with ⟨name, _, _, _, _, hname, _, _, hd⟩
      have hdname : d.name = name := by
        rw [hd, ClassRecord.name_fileAll]
      unfold definedName? at hname
      rw [← pure_eq_ok.mp h]
      grind [MemberFiling.innerName?]
  | none =>
      dsimp only at h
      cases hname : n.node.child? "name" with
      | none =>
          rw [hname] at h
          rw [← pure_eq_ok.mp h]
          rfl
      | some name =>
          simp only [hname, nameOf, bind_eq_ok, pure_eq_ok] at h
          rcases h with ⟨_, ⟨text, htext, rfl⟩, rfl⟩
          rw [Option.map_some, spelled_eq htext]
          rfl

theorem innerNames_enumFilings (h : enumFilings code n access owner = .ok filings) :
    filings.filterMap (·.innerName?) = [] := by
  rcases enumFilings_cases h with rfl | ⟨e, rfl⟩
  · rfl
  · rfl

/-- No declarator files a class. -/
theorem innerNames_declaratorFilings (h : declaratorFilings code n access = .ok filings) :
    filings.filterMap (·.innerName?) = [] := by
  -- All that a declarator may file, case by case: constructors, destructors, methods, fields.
  rcases declaratorFilings_cases h with ⟨_, rfl⟩ | ⟨_, _, _, _, _, hcases⟩ | ⟨_, _, _, hcases⟩
  · rfl
  · rcases hcases with ⟨_, hfunction⟩ | ⟨_, isPure, _, rfl⟩
    · rcases functionFilings_cases hfunction with ⟨_, rfl⟩ | ⟨_, m, _, _, hcases⟩
      · rfl
      · rcases hcases with ⟨_, rfl⟩ | ⟨_, _, rfl⟩ | ⟨_, _, rfl⟩
        · rfl
        · rfl
        · rw [List.filterMap_eq_nil_iff]
          intro f hf
          rcases mem_returningFilings hf with rfl | ⟨rfl, _⟩ | ⟨rfl, _⟩
          · rfl
          · rfl
          · rfl
    · cases isPure with
      | false => rfl
      | true => rfl
  · rcases hcases with ⟨_, hfield⟩ | ⟨_, rfl⟩
    · rcases fieldFilings_cases hfield with ⟨_, rfl⟩ | ⟨_, _, _, _, _, _, rfl⟩
      · rfl
      · rfl
    · rfl

/-- A member files a class under one name or none. -/
theorem innerNames_memberFilings (h : memberFilings code n access owner = .ok filings) :
    filings.filterMap (·.innerName?) = (nestedName? code owner n.node).toList := by
  unfold memberFilings at h
  unfold nestedName? nestedClass?
  cases hkind : MemberItem.ofKind n.node.kind with
  | member =>
      simp only [hkind, bind_eq_ok, pure_eq_ok] at h
      rcases h with ⟨first, hfirst, second, hsecond, rfl⟩
      rw [List.filterMap_append, innerNames_declaratorFilings hsecond, List.append_nil]
      unfold typeFilings at hfirst
      cases htype : n.node.child? "type" with
      | none =>
          rw [htype] at hfirst
          rw [← pure_eq_ok.mp hfirst]
          rfl
      | some type =>
          simp only [htype] at hfirst
          dsimp only
          rw [Option.map_some, Option.filter_some]
          split at hfirst
          · next hclass =>
            rw [if_pos hclass]
            exact innerNames_innerFilings hfirst
          · next hclass =>
            rw [if_neg hclass]
            split at hfirst
            · exact innerNames_enumFilings hfirst
            · rw [← pure_eq_ok.mp hfirst]
              rfl
  | typedef | aliasType =>
      simp only [hkind, bind_eq_ok, pure_eq_ok] at h
      rcases h with ⟨found, _, rfl⟩
      cases found with
      | none => rfl
      | some t => rfl
  | classType =>
      rw [hkind] at h
      exact innerNames_innerFilings h
  | enum =>
      rw [hkind] at h
      exact innerNames_enumFilings h
  | access | block | other =>
      rw [hkind] at h
      rw [← pure_eq_ok.mp h]
      rfl

end Filings

section Classes

variable {code : List Char} {n : Located} {scope : String} {c : ClassRecord}

/-- The inner classes bear the names of the classes that the members of the body are or have as
    their types. -/
theorem mem_innerClasses (h : parseClass code n scope = .ok (some c)) (key : String) :
    key ∈ c.innerClasses.keys ↔
      key ∈ (bodyMembers code n.node).filterMap (nestedName? code c.name ·.2) := by
  rcases parseClass_files h with ⟨name, comment, superclasses, items, lists, _, hitems, hlists, hc⟩
  have hname : c.name = name := by
    rw [hc, ClassRecord.name_fileAll]
  rw [hname, ← hitems, List.filterMap_map, List.filterMap_eq_flatMap_toList, hc,
    ClassRecord.mem_innerClasses_fileAll,
    filterMap_flatten_of_forall₂ hlists fun item filings => innerNames_memberFilings]
  exact or_iff_right List.not_mem_nil

/-- Every member declares or uses the class that it is or has as its type. -/
theorem mem_nestedTypes_or_usedTypes (owner key : String) :
    key ∈ nestedTypes code owner n.node ∨ key ∈ usedTypes code owner n.node ↔
      key ∈ (bodyMembers code n.node).filterMap (nestedName? code owner ·.2) := by
  simp only [nestedTypes, usedTypes, List.mem_filterMap, List.mem_filter, decide_eq_true_eq,
    ← exists_or, ← or_and_right, ← and_or_left, em, and_true]

/-- The inner classes of a class are the classes that are declared in it and those that its members
    only use. Where nothing is only used, they are the declared ones, and of all classes no others
    are searched for in signatures. -/
theorem parseClass_innerClasses (h : parseClass code n scope = .ok (some c)) :
    (∀ key, key ∈ c.innerClasses.keys ↔
      key ∈ nestedTypes code c.name n.node ∨ key ∈ usedTypes code c.name n.node) ∧
    ((∀ key ∈ usedTypes code c.name n.node, key ∈ nestedTypes code c.name n.node) →
      (∀ key, key ∈ c.innerClasses.keys ↔ key ∈ nestedTypes code c.name n.node) ∧
      ∀ word, word ∈ (InnerTypes.of c).segments ↔ word ≠ "" ∧
        word ∈ (nestedTypes code c.name n.node ++ c.typedefs.keys ++
          (c.enums.filter (!·.anonymous)).map (·.name)).map InnerTypes.unqualified) := by
  have hkeys : ∀ key, key ∈ c.innerClasses.keys ↔
      key ∈ nestedTypes code c.name n.node ∨ key ∈ usedTypes code c.name n.node := fun key =>
    (mem_innerClasses h key).trans (mem_nestedTypes_or_usedTypes c.name key).symm
  -- Names that are used besides being declared make no difference.
  refine ⟨hkeys, fun hused => ?_⟩
  have hnested : ∀ key, key ∈ c.innerClasses.keys ↔ key ∈ nestedTypes code c.name n.node :=
    fun key => (hkeys key).trans (or_iff_left_of_imp (hused key))
  refine ⟨hnested, fun word => ?_⟩
  rw [InnerTypes.mem_segments_of, ClassRecord.Declares, InnerTypes.declaredNames]
  simp only [List.mem_map, List.mem_append, hnested]

end Classes

section Used

/-- The type `struct B`, which has no body. -/
def bareStruct : Node :=
  { kind := "struct_specifier", named := true, start := 18, stop := 26, fields := [("name", 1)]
    children := [leaf "struct" false 18 24, leaf "type_identifier" true 25 26] }

/-- The member `struct B;`, which declares a class. -/
def declaringMember : Node :=
  { kind := "field_declaration", named := true, start := 18, stop := 27, fields := [("type", 0)]
    children := [bareStruct, leaf ";" false 26 27] }

/-- The member `struct B b;`, which uses a class that is declared elsewhere. -/
def usingMember : Node :=
  { kind := "field_declaration", named := true, start := 18, stop := 29
    fields := [("declarator", 1), ("type", 0)]
    children := [bareStruct, leaf "field_identifier" true 27 28, leaf ";" false 28 29] }

def declaringSource : List Char := "class A \x7b public: struct B; \x7d;".toList

def usingSource : List Char := "class A \x7b public: struct B b; \x7d;".toList

/-- The record of a class with an inner class of which only the name is known. -/
def bareInner (fields : List DataMember) : ClassRecord :=
  { name := "A", fields, innerClasses := ⟨[("A::B", { name := "A::B" })]⟩ }

variable {code : List Char}

/-- A class without a body is filed under its name. -/
theorem memberType_bareStruct {n : Located} {access : Access}
    (htype : n.node.child? "type" = some ⟨bareStruct, []⟩)
    (hname : nameOf code (leaf "type_identifier" true 25 26) = .ok "B") :
    memberType code n access { name := "A" } = .ok (bareInner []) := by
  have hchild : bareStruct.child? "name" =
      some ⟨leaf "type_identifier" true 25 26, [leaf "struct" false 18 24]⟩ := rfl
  have hparse : parseClass code ⟨bareStruct, []⟩ "A" = .ok none := by
    rw [parseClass]
    rfl
  rw [memberType_of_class htype rfl, innerClass, bind_eq_ok]
  refine ⟨none, hparse, ?_⟩
  simp only [hchild, bind_eq_ok]
  exact ⟨"B", hname, rfl⟩

theorem parseClass_declaring :
    parseClass declaringSource ⟨publicClass declaringMember, []⟩ "" =
      .ok (some (bareInner [])) := by
  refine parseClass_publicClass rfl rfl rfl ?_
  change (do declaredMember declaringSource _ _ (← memberType declaringSource _ _ _)) = _
  rw [memberType_bareStruct rfl rfl]
  rfl

/-- A class that is only declared names a nested type. -/
theorem parseClass_innerClasses_declared :
    parseClass declaringSource ⟨publicClass declaringMember, []⟩ "" =
        .ok (some (bareInner [])) ∧
      ("A::B" ∈ (bareInner []).innerClasses.keys ↔
        "A::B" ∈ nestedTypes declaringSource "A" (publicClass declaringMember)) := by
  refine ⟨parseClass_declaring, ((parseClass_innerClasses parseClass_declaring).2 ?_).1 "A::B"⟩
  -- The only member with a class is the one that declares it, so no class is only used.
  have hnone : usedTypes declaringSource "A" (publicClass declaringMember) = [] := by
    unfold usedTypes
    rw [bodyMembers_publicClass rfl rfl]
    rfl
  intro key hkey
  change key ∈ usedTypes declaringSource "A" (publicClass declaringMember) at hkey
  rw [hnone] at hkey
  exact absurd hkey List.not_mem_nil

theorem parseClass_using :
    parseClass usingSource ⟨publicClass usingMember, []⟩ "" =
      .ok (some (bareInner [{ name := "b", type := "struct B" }])) := by
  have htype : usingMember.child? "type" = some ⟨bareStruct, []⟩ := rfl
  have htext : textOf usingSource bareStruct = .ok "struct B".toList := rfl
  have hfield : declaratorFilings usingSource
      ⟨usingMember, [leaf ":" false 16 17, publicMark, leaf "\x7b" false 8 9]⟩ .isPublic =
        .ok [.field { name := "b", type := spell "struct B".toList }] :=
    declaratorFilings_of_isIdentifier rfl rfl htype rfl htext rfl
  refine parseClass_publicClass rfl rfl rfl ?_
  change (do declaredMember usingSource _ _ (← memberType usingSource _ _ _)) = _
  rw [memberType_bareStruct rfl rfl, bind_eq_ok]
  refine ⟨_, rfl, ?_⟩
  rw [declaredMember_eq, hfield]
  rfl

/-- It is not so that only the classes which are declared in a class are its inner classes: a class
    that is spelled out in the type of a data member is one, too. -/
theorem parseClass_innerClasses_used :
    ¬ ∀ (code : List Char) (n : Located) (scope : String) (c : ClassRecord),
      parseClass code n scope = .ok (some c) →
      ∀ key, key ∈ c.innerClasses.keys ↔ key ∈ nestedTypes code c.name n.node := by
  intro h
  have hnone : nestedTypes usingSource "A" (publicClass usingMember) = [] := by
    unfold nestedTypes
    rw [bodyMembers_publicClass rfl rfl]
    rfl
  have hinner := (h _ _ _ _ parseClass_using "A::B").mp (List.mem_singleton_self _)
  change "A::B" ∈ nestedTypes usingSource "A" (publicClass usingMember) at hinner
  rw [hnone] at hinner
  exact List.not_mem_nil hinner

end Used

end Extraction

end HeaderBinding
