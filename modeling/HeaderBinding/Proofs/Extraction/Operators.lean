import HeaderBinding.Proofs.Extraction.Sources
import HeaderBinding.Proofs.Extraction.Visibility

/-!
# Member Operators

Where operators are kept apart from methods.

A function that a class declares is filed among the operators if its name says so, and among the
methods only if it does not. This is done member by member, so it holds of every class that is read
from a body, at any depth and in templates. A function that is defined outside of its class is filed
when the classes are known. It is compared with the methods of its class and not with the operators,
and so an operator that is defined outside of the class gets among the methods, whether the class
declares it or not.

There is no other way in: the methods of a class with the name of an operator are ones that the
header defines outside of the class, and it has none elsewhere (`extractHeader_operatorMethods`).
And none gets lost: the operators of a class that is read are the ones that its public members
declare.

## Main definitions

* `IsOperatorName`: The name of an operator.
* `ClassRecord.OperatorMethods`: What holds of the methods with the name of an operator.
* `declaredOperator?`: The name of the operator that a member declares.
* `outlinedOperatorTree`: A class with an operator that is defined outside of the class.

## Theorems

* `parseClass_operators`: The operators of a class.
* `extractHeader_operatorMethods`: Which methods of a header have the name of an operator.
* `extractHeader_operator_among_methods`: An operator that gets among the methods.
-/

namespace HeaderBinding

/-- The name of an operator. -/
def IsOperatorName (name : String) : Prop :=
  "operator".toList <+: name.toList

instance (name : String) : Decidable (IsOperatorName name) :=
  inferInstanceAs (Decidable ("operator".toList <+: name.toList))

/-- Something holds of the methods, static or not, that have the name of an operator. -/
def ClassRecord.OperatorMethods (p : String → Prop) (c : ClassRecord) : Prop :=
  ∀ entry ∈ c.methods.entries ++ c.staticMethods.entries,
    IsOperatorName entry.2.name → p entry.2.name

namespace Extraction

open Syntax

section Sorted

variable {code : List Char} {tree : Node} {c : ClassRecord}

/-- What the members of a class file as a method does not have the name of an operator. -/
theorem not_isOperatorName_of_filed {owner : String} {m : Method}
    (h : Filed code tree owner (.method m)) : ¬ IsOperatorName m.name := by
  rcases h with ⟨item, n, access, _, _, hfiles⟩
  -- The only way for a function to be filed as a method is not to be called like an operator.
  cases hfiles with
  | method _ _ _ hname _ =>
      intro hoperator
      rw [List.isPrefixOf_iff_prefix.mpr hoperator] at hname
      exact Bool.noConfusion hname

/-- A method that is filed from outside of its class is defined there. -/
theorem definesOutOfLine_of_filedOutside {owner : String} {m : Method}
    (h : FiledOutside code tree owner m) : DefinesOutOfLine code tree owner m.name := by
  rcases h with ⟨item, namespaces, function, parts, hitem, _, hparts, howner, suffix, _, hm⟩
  exact ⟨namespaces, item.node, hitem, parts, hparts, howner, (callable_spec hm).1⟩

/-- In a class that is made of its members and of methods from outside, only those from outside can
    have the name of an operator. -/
theorem operatorMethods_of_madeOf {outside : String → Method → Prop} {p : String → Prop}
    (h : c.MadeOf (Filed code tree) outside) (hp : ∀ m, outside c.name m → p m.name) :
    c.OperatorMethods p := by
  intro entry hentry hoperator
  -- A method comes from a member or from outside, whether or not it is static.
  have hsource : Filed code tree c.name (.method entry.2) ∨ outside c.name entry.2 := by
    rcases List.mem_append.mp hentry with hmethod | hstatic
    · exact h.methods entry hmethod
    · exact h.staticMethods entry hstatic
  rcases hsource with hinside | houtside
  · exact absurd hoperator (not_isOperatorName_of_filed hinside)
  · exact hp _ houtside

end Sorted

section Declared

variable (code : List Char)

/-- The name of the operator that a function is, if it is one. -/
def operatorName? (function : Node) : Option String :=
  (((directName? function).filter fun name => ¬ NamesDestructor code name).map fun name =>
    String.ofList (normalize (spelled code name))).filter (IsOperatorName ·)

/-- The name of the operator that a member declares, if it is public and has a return type. -/
def declaredOperator? (access : Access) (item : Node) : Option String :=
  if MemberItem.ofKind item.kind = .member ∧ access = .isPublic ∧ (item.child? "type").isSome then
    (declaredFunction? item).bind (operatorName? code)
  else none

variable {code} {n : Located} {access : Access} {owner : String} {filings : List MemberFiling}

/-- A function that returns something is an operator if its name says so. -/
theorem operators_returningFilings (m : Method) :
    ((returningFilings m).filterMap (·.operator?)).map (·.name) =
      ((some m.name).filter (IsOperatorName ·)).toList := by
  -- A pure virtual function marks its class besides, which adds no operator.
  have hmark : (if m.isPureVirtual then [MemberFiling.abstractMark] else []).filterMap
      (·.operator?) = [] := by
    split
    · rfl
    · rfl
  unfold returningFilings
  rw [List.filterMap_append, hmark, List.nil_append, Option.filter_some]
  by_cases hname : IsOperatorName m.name
  · rw [if_pos (List.isPrefixOf_iff_prefix.mpr hname), if_pos (decide_eq_true hname)]
    rfl
  · rw [if_neg fun hprefix => hname (List.isPrefixOf_iff_prefix.mp hprefix),
      if_neg fun hdecide => hname (of_decide_eq_true hdecide)]
    split
    · rfl
    · rfl

/-- Destructors and what returns nothing are no operators, whatever they are called. -/
theorem operators_functionFilings {function : Node} {suffix : List Char}
    (h : functionFilings code n function suffix = .ok filings) :
    (filings.filterMap (·.operator?)).map (·.name) =
      if (n.node.child? "type").isSome then (operatorName? code function).toList else [] := by
  unfold operatorName?
  rcases functionFilings_cases h with ⟨hnone, rfl⟩ | ⟨name, m, hname, hm, hcases⟩
  · rw [hnone]
    exact (ite_self _).symm
  · rw [← (callable_spec hm).2, hname, Option.filter_some]
    rcases hcases with ⟨hdestructor, rfl⟩ | ⟨_, hreturn, rfl⟩ | ⟨hdestructor, hreturn, rfl⟩
    -- A destructor is taken out before its name is looked at.
    · have hdropped : ¬ decide (¬ NamesDestructor code name) = true := by
        rw [decide_eq_true_eq]
        exact not_not.mpr hdestructor
      rw [if_neg hdropped]
      exact (ite_self _).symm
    -- Without a return type it is a constructor.
    · rw [hreturn]
      rfl
    · rw [if_pos (decide_eq_true hdestructor), if_pos hreturn, Option.map_some,
        ← (callable_spec hm).1]
      exact operators_returningFilings m

/-- The operator on the list of a declarator is the one that it leads to. -/
theorem operators_declaratorFilings (h : declaratorFilings code n access = .ok filings) :
    (filings.filterMap (·.operator?)).map (·.name) =
      if access = .isPublic ∧ (n.node.child? "type").isSome then
        ((declaredFunction? n.node).bind (operatorName? code)).toList
      else [] := by
  unfold declaredFunction?
  rcases declaratorFilings_cases h with ⟨hnone, rfl⟩ |
    ⟨declarator, function, suffix, hdeclarator, hfunction, hcases⟩ |
    ⟨declarator, hdeclarator, hfunction, hcases⟩
  · rw [hnone]
    exact (ite_self _).symm
  · rw [hdeclarator, Option.bind_some, hfunction, Option.map_some, Option.bind_some]
    rcases hcases with ⟨hpublic, hfilings⟩ | ⟨haccess, isPure, _, rfl⟩
    · rw [operators_functionFilings hfilings]
      simp only [hpublic, true_and]
    -- What is not public is not filed, except that it may make the class abstract.
    · have hnot : ¬ (access = .isPublic ∧ (n.node.child? "type").isSome = true) :=
        fun hboth => haccess hboth.1
      rw [if_neg hnot]
      cases isPure with
      | true => rfl
      | false => rfl
  · -- A data member files no operator, whatever it is called.
    rw [hdeclarator, Option.bind_some, hfunction, Option.map_none, Option.bind_none,
      Option.toList_none, ite_self]
    rcases hcases with ⟨_, hfilings⟩ | ⟨_, rfl⟩
    · rcases fieldFilings_cases hfilings with ⟨_, rfl⟩ | ⟨_, _, _, _, _, _, rfl⟩
      · rfl
      · rfl
    · rfl

/-- A member files the operator that it declares, and no other. -/
theorem operators_memberFilings (h : memberFilings code n access owner = .ok filings) :
    (filings.filterMap (·.operator?)).map (·.name) =
      (declaredOperator? code access n.node).toList := by
  unfold declaredOperator?
  rcases memberFilings_cases h with ⟨hkind, first, second, hfirst, hsecond, rfl⟩ | ⟨hkind, hother⟩
  -- The type of a member may be a class or an enumeration, but no operator.
  · have htype : first.filterMap (·.operator?) = [] := by
      rcases typeFilings_cases hfirst with rfl | ⟨e, rfl⟩ | ⟨_, d, _, _, rfl, _⟩
      all_goals rfl
    rw [List.filterMap_append, htype, List.nil_append, operators_declaratorFilings hsecond]
    simp only [hkind, true_and]
    split
    · rfl
    · rfl
  · rw [if_neg fun hmember => hkind hmember.1]
    rcases hother with rfl | ⟨e, rfl⟩ | ⟨t, rfl, _⟩ | ⟨d, rfl, _⟩
    all_goals rfl

/-- The operators of a class are those that its public members declare, in order. -/
theorem parseClass_operators {scope : String} {c : ClassRecord}
    (h : parseClass code n scope = .ok (some c)) :
    c.operators.map (·.name) =
      (bodyMembers code n.node).filterMap fun entry => declaredOperator? code entry.1 entry.2 := by
  rcases parseClass_files h with ⟨_, _, _, items, lists, _, hitems, hlists, rfl⟩
  have hread := filterMap_flatten_of_forall₂ hlists fun item filings hfilings =>
    List.map_filterMap.symm.trans (operators_memberFilings hfilings)
  rw [ClassRecord.operators_fileAll, List.nil_append, List.map_filterMap, hread, ← hitems,
    List.filterMap_map, List.filterMap_eq_flatMap_toList]
  rfl

end Declared

/-- The operators of a class that is read are those that its public members declare. Its methods
    with the name of an operator are defined outside of the class. In nested classes and in class
    templates no method has the name of an operator, and neither has one anywhere if the header
    defines no operator outside of its class. -/
theorem extractHeader_operatorMethods (code : List Char) (path : Path) (tree : Node)
    (header : Header) (h : extractHeader code path tree = .ok header) :
    (∀ c ∈ header.classes, c.OperatorMethods (DefinesOutOfLine code tree c.name) ∧
      ∀ entry ∈ c.innerClasses.entries, entry.2.Everywhere (·.OperatorMethods fun _ => False)) ∧
    (∀ t ∈ header.classTemplates, t.record.Everywhere (·.OperatorMethods fun _ => False)) ∧
    ((∀ owner name, DefinesOutOfLine code tree owner name → ¬ IsOperatorName name) →
      ∀ c ∈ header.classes, c.Everywhere (·.OperatorMethods fun _ => False)) ∧
    ∀ n scope c, parseClass code n scope = .ok (some c) → c.operators.map (·.name) =
      (bodyMembers code n.node).filterMap fun entry => declaredOperator? code entry.1 entry.2 := by
  rcases extractHeader_madeOf h with ⟨hclasses, htemplates, _⟩
  -- Nothing is filed from outside into nested classes and class templates.
  have hinside : ∀ {c : ClassRecord}, FiledInside code tree c →
      c.Everywhere (·.OperatorMethods fun _ => False) :=
    fun hc => hc.imp fun _ hmade => operatorMethods_of_madeOf hmade.2 fun _ => id
  have houtside : ∀ c ∈ header.classes, c.OperatorMethods (DefinesOutOfLine code tree c.name) :=
    fun c hc => operatorMethods_of_madeOf (hclasses c hc).here
      fun _ => definesOutOfLine_of_filedOutside
  refine ⟨fun c hc => ⟨houtside c hc, fun entry hentry => ?_⟩, fun t ht => ?_,
    fun hnone c hc => ?_, fun n scope c => parseClass_operators⟩
  · exact hinside ((hclasses c hc).nested entry hentry)
  · exact hinside (htemplates t ht)
  -- Where no operator is defined outside, a class has none among its methods either.
  · refine ClassRecord.Everywhere.mk c (fun entry hentry hoperator => ?_) fun entry hentry =>
      hinside ((hclasses c hc).nested entry hentry)
    exact hnone c.name _ (houtside c hc entry hentry hoperator) hoperator

section Outlined

/-- A class with a public operator, and the operator defined behind it. -/
def outlinedOperatorSource : List Char :=
  "class A { public: void operator++(); }; void A::operator++() {}".toList

/-- The name `operator++`. -/
def incrementName (start : Nat) : Node :=
  { kind := "operator_name", named := true, start, stop := start + 10, fields := []
    children := [leaf "operator" false start (start + 8),
      leaf "++" false (start + 8) (start + 10)] }

/-- The declaration `void operator++();` in the class. -/
def operatorMember : Node :=
  { kind := "field_declaration", named := true, start := 18, stop := 36
    fields := [("declarator", 1), ("type", 0)]
    children := [leaf "primitive_type" true 18 22,
      { kind := "function_declarator", named := true, start := 23, stop := 35
        fields := [("declarator", 0), ("parameters", 1)]
        children := [incrementName 23, noParameters 33] },
      leaf ";" false 35 36] }

/-- The definition `void A::operator++() {}`. -/
def operatorDefinition : Node :=
  { kind := "function_definition", named := true, start := 40, stop := 63
    fields := [("body", 2), ("declarator", 1), ("type", 0)]
    children := [leaf "primitive_type" true 40 44,
      { kind := "function_declarator", named := true, start := 45, stop := 60
        fields := [("declarator", 0), ("parameters", 1)]
        children := [
          { kind := "qualified_identifier", named := true, start := 45, stop := 58
            fields := [("name", 2)]
            children := [leaf "namespace_identifier" true 45 46, leaf "::" false 46 48,
              incrementName 48] },
          noParameters 58] },
      { kind := "compound_statement", named := true, start := 61, stop := 63, fields := []
        children := [leaf "\x7b" false 61 62, leaf "\x7d" false 62 63] }] }

/-- The tree of the header. -/
def outlinedOperatorTree : Node :=
  { kind := "translation_unit", named := true, start := 0, stop := 63, fields := []
    children := [publicClass operatorMember, leaf ";" false 38 39, operatorDefinition] }

/-- The operator as it is filed. -/
def incrementOperator : Method :=
  { name := "operator++", fullName := "operator++()", returnType := some "void" }

/-- The record of the class before methods are filed from outside. -/
def operatorRecord : ClassRecord :=
  { name := "A", operators := [incrementOperator] }

/-- The record of the header. -/
def outlinedOperatorHeader : Header :=
  { Header.ofPath "gp_Test.hxx" with
    classes := [{ operatorRecord with path := some "gp_Test.hxx" }.addMethod incrementOperator] }

/-- The class has the operator among its operators. -/
theorem parseClass_operatorMember :
    parseClass outlinedOperatorSource ⟨publicClass operatorMember, []⟩ "" =
      .ok (some operatorRecord) := by
  refine parseClass_publicClass rfl rfl rfl ?_
  rw [fileMember_eq, memberFilings_of_plain rfl rfl, declaratorFilings_of_kind rfl rfl]
  rfl

theorem addClass_operatorMember :
    Collector.addClass outlinedOperatorSource ⟨publicClass operatorMember, []⟩ []
      { header := Header.ofPath "gp_Test.hxx" } = .ok {
        header := { Header.ofPath "gp_Test.hxx" with
          classes := [{ operatorRecord with path := some "gp_Test.hxx" }] }
        classSlots := (∅ : Std.HashMap String Nat).insert "A" 0 } := by
  rw [Collector.addClass, bind_eq_ok]
  refine ⟨_, parseClass_operatorMember, ?_⟩
  simp only [Collector.insertClass, Std.HashMap.getElem?_empty]
  rfl

/-- The definition is kept until all classes are known. -/
theorem addFunction_operatorDefinition (s : Collector) :
    s.addFunction outlinedOperatorSource
      ⟨operatorDefinition, [leaf ";" false 38 39, publicClass operatorMember]⟩ [] =
      .ok { s with outOfLine := s.outOfLine ++ [("A", incrementOperator)] } := by
  have hfunction : ((operatorDefinition.child? "declarator").bind fun d =>
      functionDeclarator? d.node) = some (operatorDefinition.children[1], []) :=
    functionDeclarator?_of_kind rfl
  simp only [Collector.addFunction, hfunction]
  rfl

theorem extractHeader_operatorDefinition :
    extractHeader outlinedOperatorSource "gp_Test.hxx" outlinedOperatorTree =
      .ok outlinedOperatorHeader := by
  rw [extractHeader, outlinedOperatorTree, bind_eq_ok]
  -- Behind the walk the class is known, and the definition still waits for it.
  refine ⟨{
    header := { Header.ofPath "gp_Test.hxx" with
      classes := [{ operatorRecord with path := some "gp_Test.hxx" }] }
    classSlots := (∅ : Std.HashMap String Nat).insert "A" 0
    outOfLine := [("A", incrementOperator)] }, ?_, ?_⟩
  · rw [visitScope_cons, bind_eq_ok]
    refine ⟨_, addClass_operatorMember, ?_⟩
    rw [visitScope_cons, bind_eq_ok]
    refine ⟨_, rfl, ?_⟩
    rw [visitScope_cons, bind_eq_ok]
    refine ⟨_, addFunction_operatorDefinition _, ?_⟩
    rw [Collector.visitScope]
    rfl
  · simp only [Collector.finish, List.foldlM_cons, List.foldlM_nil, Collector.fileOutOfLine,
      Std.HashMap.getElem?_insert_self]
    rfl

theorem extractHeader_operatorMethods_outlined :
    extractHeader outlinedOperatorSource "gp_Test.hxx" outlinedOperatorTree =
        .ok outlinedOperatorHeader ∧
      DefinesOutOfLine outlinedOperatorSource outlinedOperatorTree "A" "operator++" :=
  ⟨extractHeader_operatorDefinition,
    ((extractHeader_operatorMethods _ _ _ _ extractHeader_operatorDefinition).1 _
      (List.mem_singleton_self _)).1 ("void operator++()", incrementOperator)
      (List.mem_append_left _ (List.mem_singleton_self _)) (by decide)⟩

/-- It is not so that no method of a class has the name of an operator: the header of the example
    has the operator of its class among the methods. -/
theorem extractHeader_operator_among_methods :
    ¬ ∀ (code : List Char) (path : Path) (tree : Node) (header : Header),
      extractHeader code path tree = .ok header →
      (∀ c ∈ header.classes, c.Everywhere (·.OperatorMethods fun _ => False)) ∧
        ∀ t ∈ header.classTemplates, t.record.Everywhere (·.OperatorMethods fun _ => False) := by
  intro h
  have hnone := ((h _ _ _ _ extractHeader_operatorDefinition).1 _ (List.mem_singleton_self _)).here
  exact hnone ("void operator++()", incrementOperator)
    (List.mem_append_left _ (List.mem_singleton_self _)) (by decide)

end Outlined

end Extraction

end HeaderBinding
