import HeaderBinding.Proofs.Extraction.Members
import HeaderBinding.Proofs.Extraction.Visibility

/-!
# Abstract Classes

When a class is recorded as abstract.

A class is abstract if one of its functions is pure, and it does not matter who may use the
function. So every function in the body counts, whatever its access, if its declarator names it
directly and `= 0` stands behind it (`DeclaresPure`). A member that is a pointer to a function does
not count, though `= 0` may stand behind it too.

What marks a record is close to that and not the same (`MarksAbstract`). A public function has to
have a return type besides and must not be a destructor, since only functions with a return type are
asked whether they are pure. And a member that is not public is marked by the `= 0` alone, so that a
pointer to a function will do. Where a body has no members of these kinds, its class is marked if
and only if a member declares a pure function (`parseClass_isAbstract`).

## Main definitions

* `IsZeroed`: A function with `= 0` behind it.
* `DeclaresPure`: A member declares a pure function.
* `MarksAbstract`: A member marks the record of its class.
* `MarkedAsDeclared`: A member of a kind for which the two agree.

## Theorems

* `marksAbstract_iff`: Where a member marks the record if and only if it declares a pure function.
* `any_isAbstractMark_memberFilings`: What the list of a member says.
* `parseClass_isAbstract`: When a class is recorded as abstract.
-/

namespace HeaderBinding

namespace Extraction

open Syntax

section

variable (code : List Char)

/-- `= 0` stands between the function and the end of its declaration, blanks aside. -/
def IsZeroed (declaration function : Node) : Prop :=
  ['=', '0'] <+:
    ((Text.slice? code function.stop declaration.stop).getD []).filter (!Text.isBlank ·)

/-- A member declares a function that is named directly, with `= 0` behind it. -/
def DeclaresPure (item : Node) : Prop :=
  MemberItem.ofKind item.kind = .member ∧ ∃ function, declaredFunction? item = some function ∧
    (directName? function).isSome ∧ IsZeroed code item function

/-- A member marks the record of its class as abstract. -/
def MarksAbstract (access : Access) (item : Node) : Prop :=
  MemberItem.ofKind item.kind = .member ∧ ∃ function, declaredFunction? item = some function ∧
    (access = .isPublic → ∃ name, directName? function = some name ∧
      ¬ NamesDestructor code name ∧ (item.child? "type").isSome) ∧ IsZeroed code item function

/-- A function of the member with `= 0` behind it is named directly if it is not public. A public
    one that is named directly has a return type and is no destructor. -/
def MarkedAsDeclared (access : Access) (item : Node) : Prop :=
  MemberItem.ofKind item.kind = .member →
    ∀ function, declaredFunction? item = some function → IsZeroed code item function →
      if access = .isPublic then
        ∀ name, directName? function = some name →
          ¬ NamesDestructor code name ∧ (item.child? "type").isSome
      else (directName? function).isSome

end

variable {code : List Char}

/-- A member of such a kind marks the record if and only if it declares a pure function. -/
theorem marksAbstract_iff {access : Access} {item : Node}
    (h : MarkedAsDeclared code access item) :
    MarksAbstract code access item ↔ DeclaresPure code item := by
  refine and_congr_right fun hkind => exists_congr fun function => and_congr_right fun hfunction =>
    and_congr_left fun hzeroed => ?_
  have hmarked := h hkind function hfunction hzeroed
  -- The two differ in what they ask of a public function and in what they ask of any other.
  by_cases hpublic : access = .isPublic
  · rw [if_pos hpublic] at hmarked
    constructor
    · intro hnamed
      rcases hnamed hpublic with ⟨name, hname, _⟩
      rw [hname]
      rfl
    · intro hnamed _
      rcases Option.isSome_iff_exists.mp hnamed with ⟨name, hname⟩
      exact ⟨name, hname, hmarked name hname⟩
  · rw [if_neg hpublic] at hmarked
    exact iff_of_true (fun hc => absurd hc hpublic) hmarked

/-- What is found behind a function is what stands there, if it could be looked at. -/
theorem isZeroed_of_isPureVirtual {declaration function : Node} {found : Bool}
    (h : isPureVirtual code declaration function = .ok found) :
    found = true ↔ IsZeroed code declaration function := by
  unfold isPureVirtual slice at h
  unfold IsZeroed
  -- A result was found, so the part of the source is there.
  rcases hslice : Text.slice? code function.stop declaration.stop with _ | tail
  · rw [hslice] at h
    exact absurd h (by simp only [bind, Except.bind, reduceCtorEq, not_false_eq_true])
  · rw [hslice] at h
    rw [← Except.ok.inj h, Option.getD_some]
    exact List.isPrefixOf_iff_prefix

/-- A function is pure if `= 0` stands behind it. -/
theorem isPureVirtual_of_callable {declaration : Located} {function : Node} {suffix : List Char}
    {name : String} {m : Method} (h : callable code declaration function suffix name = .ok m) :
    m.isPureVirtual = true ↔ IsZeroed code declaration.node function := by
  unfold callable at h
  split at h
  all_goals
    simp only [bind_eq_ok, pure_eq_ok] at h
    rcases h with ⟨_, _, _, _, _, _, _, _, _, _, _, _, isPure, hpure, rfl⟩
    exact isZeroed_of_isPureVirtual hpure

section Marks

variable {n : Located} {access : Access} {owner : String} {filings : List MemberFiling}

/-- The type of a member does not mark the class around it. -/
theorem any_isAbstractMark_typeFilings (h : typeFilings code n access owner = .ok filings) :
    filings.any (·.isAbstractMark) = false := by
  rcases typeFilings_cases h with rfl | ⟨e, rfl⟩ | ⟨type, d, _, _, rfl, _⟩
  · rfl
  · rfl
  · rfl

/-- Of the functions with a return type, the pure ones mark their class. -/
theorem any_isAbstractMark_returningFilings (m : Method) :
    (returningFilings m).any (·.isAbstractMark) = m.isPureVirtual := by
  -- Being filed as an operator or as a method marks nothing.
  have hfiled : (if "operator".toList.isPrefixOf m.name.toList then [MemberFiling.operator m]
      else if m.hasRvalueArguments then [] else [.method m]).any (·.isAbstractMark) = false := by
    split
    · rfl
    · split
      · rfl
      · rfl
  rw [returningFilings, List.any_append, hfiled, Bool.or_false]
  cases m.isPureVirtual with
  | true => rfl
  | false => rfl

/-- A public function marks its class if it is pure, is named directly, has a return type and is no
    destructor. -/
theorem any_isAbstractMark_functionFilings {function : Node} {suffix : List Char}
    (h : functionFilings code n function suffix = .ok filings) :
    filings.any (·.isAbstractMark) = true ↔
      (∃ name, directName? function = some name ∧ ¬ NamesDestructor code name ∧
        (n.node.child? "type").isSome) ∧ IsZeroed code n.node function := by
  rcases functionFilings_cases h with ⟨hnone, rfl⟩ | ⟨name, m, hname, hm, hcases⟩
  · rw [hnone]
    exact iff_of_false Bool.false_ne_true fun ⟨⟨name, hname, _⟩, _⟩ =>
      absurd hname (by simp only [reduceCtorEq, not_false_eq_true])
  · rw [← isPureVirtual_of_callable hm, ← (callable_spec hm).2, hname]
    simp only [Option.some.injEq, exists_eq_left']
    -- Of the three only a function with a return type is asked whether it is pure.
    rcases hcases with ⟨hdestructor, rfl⟩ | ⟨_, hreturn, rfl⟩ | ⟨hdestructor, hreturn, rfl⟩
    · exact iff_of_false Bool.false_ne_true fun hc => hc.1.1 hdestructor
    · refine iff_of_false Bool.false_ne_true fun hc => ?_
      rw [hreturn] at hc
      exact absurd hc.1.2 Bool.false_ne_true
    · rw [any_isAbstractMark_returningFilings]
      exact (and_iff_right ⟨hdestructor, hreturn⟩).symm

/-- A declarator marks its class if it leads to a function with `= 0` behind it and, where the
    function is public, to one that is asked for that. -/
theorem any_isAbstractMark_declaratorFilings (h : declaratorFilings code n access = .ok filings) :
    filings.any (·.isAbstractMark) = true ↔
      ∃ function, declaredFunction? n.node = some function ∧
        (access = .isPublic → ∃ name, directName? function = some name ∧
          ¬ NamesDestructor code name ∧ (n.node.child? "type").isSome) ∧
        IsZeroed code n.node function := by
  unfold declaredFunction?
  rcases declaratorFilings_cases h with ⟨hnone, rfl⟩ |
    ⟨declarator, function, suffix, hdeclarator, hfunction, hcases⟩ |
    ⟨declarator, hdeclarator, hfunction, hcases⟩
  · rw [hnone]
    exact iff_of_false Bool.false_ne_true fun ⟨function, hfunction, _⟩ =>
      absurd hfunction (by simp only [Option.bind_none, Option.map_none, reduceCtorEq,
        not_false_eq_true])
  · rw [hdeclarator, Option.bind_some, hfunction, Option.map_some]
    simp only [Option.some.injEq, exists_eq_left']
    rcases hcases with ⟨hpublic, hfilings⟩ | ⟨haccess, isPure, hpure, rfl⟩
    · rw [any_isAbstractMark_functionFilings hfilings]
      exact and_congr_left fun _ => ⟨fun hnamed _ => hnamed, fun hnamed => hnamed hpublic⟩
    · -- A member that is not public is marked whatever stands in front of the `= 0`.
      rw [← isZeroed_of_isPureVirtual hpure, and_iff_right fun hc => absurd hc haccess]
      cases isPure with
      | true => exact iff_of_true rfl rfl
      | false => exact iff_of_false Bool.false_ne_true Bool.false_ne_true
  -- A data member or nothing at all is no function, and so nothing is marked.
  · rw [hdeclarator, Option.bind_some, hfunction]
    refine iff_of_false (Bool.not_eq_true _ |>.mpr ?_) fun ⟨function, hnone, _⟩ =>
      absurd hnone (by simp only [Option.map_none, reduceCtorEq, not_false_eq_true])
    rcases hcases with ⟨_, hfilings⟩ | ⟨_, rfl⟩
    · rcases fieldFilings_cases hfilings with ⟨_, rfl⟩ | ⟨_, _, _, _, _, _, rfl⟩
      · rfl
      · rfl
    · rfl

/-- The list of a member says whether the member marks its class. -/
theorem any_isAbstractMark_memberFilings (h : memberFilings code n access owner = .ok filings) :
    filings.any (·.isAbstractMark) = true ↔ MarksAbstract code access n.node := by
  unfold MarksAbstract
  rcases memberFilings_cases h with ⟨hkind, first, second, hfirst, hsecond, rfl⟩ | ⟨hkind, hother⟩
  · rw [List.any_append, any_isAbstractMark_typeFilings hfirst, Bool.false_or,
      any_isAbstractMark_declaratorFilings hsecond]
    exact (and_iff_right hkind).symm
  -- Only members may declare functions; everything else in a body marks nothing.
  · refine iff_of_false ?_ fun hmember => hkind hmember.1
    rcases hother with rfl | ⟨e, rfl⟩ | ⟨t, rfl, _⟩ | ⟨d, rfl, _⟩
    all_goals exact Bool.false_ne_true

end Marks

/-- Lists of members say together whether one of the members marks the class. -/
theorem any_isAbstractMark_lists {owner : String} {items : List (Access × Located)}
    {lists : List (List MemberFiling)}
    (h : List.Forall₂ (fun item filings => memberFilings code item.2 item.1 owner = .ok filings)
      items lists) :
    lists.flatten.any (·.isAbstractMark) = true ↔
      ∃ item ∈ items, MarksAbstract code item.1 item.2.node := by
  induction h with
  | nil => exact iff_of_false Bool.false_ne_true fun ⟨_, hc, _⟩ => absurd hc List.not_mem_nil
  | cons hitem _ ih =>
      rw [List.flatten_cons, List.any_append, Bool.or_eq_true, ih, List.exists_mem_cons_iff,
        any_isAbstractMark_memberFilings hitem]

/-- A class is abstract in its record if and only if one of the members in its body marks it,
    whatever stands around the member. If the members mark as they declare, these are the ones that
    declare a pure function. -/
theorem parseClass_isAbstract {code : List Char} {n : Located} {scope : String} {c : ClassRecord}
    (h : parseClass code n scope = .ok (some c)) :
    (c.isAbstract = true ↔
      ∃ entry ∈ bodyMembers code n.node, MarksAbstract code entry.1 entry.2) ∧
    ((∀ entry ∈ bodyMembers code n.node, MarkedAsDeclared code entry.1 entry.2) →
      (c.isAbstract = true ↔ ∃ entry ∈ bodyMembers code n.node, DeclaresPure code entry.2)) := by
  -- The record starts out unmarked, and nothing takes a mark off again.
  have hmarks : c.isAbstract = true ↔
      ∃ entry ∈ bodyMembers code n.node, MarksAbstract code entry.1 entry.2 := by
    rcases parseClass_files h with ⟨_, _, _, items, lists, _, hitems, hlists, rfl⟩
    rw [ClassRecord.isAbstract_fileAll, Bool.false_or, any_isAbstractMark_lists hlists, ← hitems]
    simp only [List.mem_map, exists_exists_and_eq_and]
  refine ⟨hmarks, fun hdeclared => hmarks.trans (exists_congr fun entry => ?_)⟩
  exact and_congr_right fun hentry => marksAbstract_iff (hdeclared entry hentry)

section Pure

/-- A class with a pure method. -/
def pureMethodSource : List Char := "class A { public: virtual int p() = 0; };".toList

/-- The declaration `virtual int p() = 0;`. -/
def pureMethod : Node :=
  { kind := "field_declaration", named := true, start := 18, stop := 38
    fields := [("declarator", 2), ("default_value", 4), ("type", 1)]
    children := [leaf "virtual" false 18 25, leaf "primitive_type" true 26 29,
      { kind := "function_declarator", named := true, start := 30, stop := 33
        fields := [("declarator", 0), ("parameters", 1)]
        children := [leaf "field_identifier" true 30 31, noParameters 31] },
      leaf "=" false 34 35, leaf "number_literal" true 36 37, leaf ";" false 37 38] }

/-- A class with a pure destructor. -/
def pureDestructorSource : List Char := "class A { public: virtual ~A() = 0; };".toList

/-- The declaration `virtual ~A() = 0;`. -/
def pureDestructor : Node :=
  { kind := "function_definition", named := true, start := 18, stop := 35
    fields := [("declarator", 1)]
    children := [leaf "virtual" false 18 25,
      { kind := "function_declarator", named := true, start := 26, stop := 30
        fields := [("declarator", 0), ("parameters", 1)]
        children := [
          { kind := "destructor_name", named := true, start := 26, stop := 28, fields := []
            children := [leaf "~" false 26 27, leaf "identifier" true 27 28] },
          noParameters 28] },
      { kind := "pure_virtual_clause", named := true, start := 31, stop := 35, fields := []
        children := [leaf "=" false 31 32, leaf ";" false 34 35] }] }

/-- The record of the class with the pure method. -/
def pureMethodRecord : ClassRecord :=
  ClassRecord.fileAll { name := "A" } [.abstractMark, .method {
    name := "p", fullName := "p()", returnType := some "int", isVirtual := true
    isPureVirtual := true }]

/-- The class of the example has the method and the mark. -/
theorem parseClass_pureMethod :
    parseClass pureMethodSource ⟨publicClass pureMethod, []⟩ "" = .ok (some pureMethodRecord) := by
  refine parseClass_publicClass rfl rfl rfl ?_
  rw [fileMember_eq, memberFilings_of_plain rfl rfl, declaratorFilings_of_kind rfl rfl]
  rfl

/-- Its only member has a return type and is no destructor. -/
theorem markedAsDeclared_pureMethod (entry : Access × Node)
    (hentry : entry ∈ bodyMembers pureMethodSource (publicClass pureMethod)) :
    MarkedAsDeclared pureMethodSource entry.1 entry.2 := by
  intro hkind function hfunction _
  -- The access specifier in front of the method is no member.
  obtain rfl := (mem_bodyMembers_publicClass rfl rfl entry).mp ⟨hentry, hkind⟩
  rw [declaredFunction?_of_kind rfl rfl] at hfunction
  obtain rfl := Option.some.inj hfunction
  rw [if_pos rfl]
  rintro name hname
  obtain rfl := Option.some.inj hname
  exact ⟨by decide, rfl⟩

theorem parseClass_isAbstract_pureMethod :
    parseClass pureMethodSource ⟨publicClass pureMethod, []⟩ "" = .ok (some pureMethodRecord) ∧
      ∃ entry ∈ bodyMembers pureMethodSource (publicClass pureMethod),
        DeclaresPure pureMethodSource entry.2 :=
  ⟨parseClass_pureMethod,
    ((parseClass_isAbstract parseClass_pureMethod).2 markedAsDeclared_pureMethod).mp rfl⟩

/-- The record of the class with the pure destructor. -/
def pureDestructorRecord : ClassRecord :=
  ClassRecord.fileAll { name := "A" } [.destructor {
    name := "~A", fullName := "~A()", isVirtual := true, isPureVirtual := true }]

/-- The class of the example has the destructor and no mark. -/
theorem parseClass_pureDestructor :
    parseClass pureDestructorSource ⟨publicClass pureDestructor, []⟩ "" =
      .ok (some pureDestructorRecord) := by
  refine parseClass_publicClass rfl rfl rfl ?_
  rw [fileMember_eq, memberFilings_of_plain rfl rfl, declaratorFilings_of_kind rfl rfl]
  rfl

/-- It is not so that a class is abstract in its record if and only if a member declares a pure
    function: a public destructor is never asked. -/
theorem parseClass_pureDestructor_not_isAbstract :
    ¬ ∀ (code : List Char) (n : Located) (scope : String) (c : ClassRecord),
      parseClass code n scope = .ok (some c) →
      (c.isAbstract = true ↔ ∃ entry ∈ bodyMembers code n.node, DeclaresPure code entry.2) := by
  intro h
  have hpure : isPureVirtual pureDestructorSource pureDestructor pureDestructor.children[1] =
      .ok true := rfl
  have hzeroed := (isZeroed_of_isPureVirtual hpure).mp rfl
  -- The destructor declares a pure function, and the record has no mark.
  have habstract := (h _ _ _ _ parseClass_pureDestructor).mpr
    ⟨(.isPublic, pureDestructor), ((mem_bodyMembers_publicClass rfl rfl _).mpr rfl).1, rfl, _,
      declaredFunction?_of_kind rfl rfl, rfl, hzeroed⟩
  exact absurd habstract Bool.false_ne_true

end Pure

end Extraction

end HeaderBinding
