import HeaderBinding.Proofs.Extraction.HeaderScope

/-!
# Public Members

Where the members of a class record come from.

Constructors, destructors and operators are declared in a public section of a body of their class,
and so is every member of a class template. For the methods of a class there is a second way in. A
function that is defined outside of its class is filed as a method unless the class has recorded a
method of that name, and of a method that is not public nothing is recorded. So a private method
gets in when it is defined in the header outside of the class.

## Main definitions

* `ClassRecord.BindsOnly`: The members of a record come from declarations of the class.
* `outlinedTree`: A class with a private method that is defined outside of the class.

## Theorems

* `extractHeader_bindsOnly`: Every member of a header is declared publicly or defined outside.
* `extractHeader_outlined`: The header of the class with the private method.
* `extractHeader_binds_private`: A private method of that class is bound.
-/

namespace HeaderBinding

/-- Constructors, destructors and operators of the record are declared by the class, methods are
    declared by it or defined outside of it. -/
structure ClassRecord.BindsOnly (declared defined : String → String → Prop) (c : ClassRecord) :
    Prop where
  methods : ∀ entry ∈ c.methods.entries,
    declared c.name entry.2.name ∨ defined c.name entry.2.name
  staticMethods : ∀ entry ∈ c.staticMethods.entries,
    declared c.name entry.2.name ∨ defined c.name entry.2.name
  constructors : ∀ m ∈ c.constructors, declared c.name m.name
  destructors : ∀ m ∈ c.destructors, declared c.name m.name
  operators : ∀ m ∈ c.operators, declared c.name m.name

namespace Extraction

open Syntax

section Kept

variable (declared defined : String → String → Prop)

theorem bindsOnly_kept :
    KeptByFiling declared defined (ClassRecord.BindsOnly declared defined) where
  bare _ _ _ := by
    refine ⟨?_, ?_, ?_, ?_, ?_⟩
    all_goals exact fun _ h => absurd h List.not_mem_nil
  path _ _ h := { h with }
  isAbstract _ h := { h with }
  field _ _ h := { h with }
  enum _ _ h := { h with }
  typedef _ _ h := { h with }
  destructor _ _ h hdeclared := { h with
    destructors :=
      List.forall_mem_append.mpr ⟨h.destructors, List.forall_mem_singleton.mpr hdeclared⟩ }
  constructor _ _ h hdeclared _ _ _ _ := { h with
    constructors :=
      List.forall_mem_append.mpr ⟨h.constructors, List.forall_mem_singleton.mpr hdeclared⟩ }
  operator _ _ h hdeclared := { h with
    operators :=
      List.forall_mem_append.mpr ⟨h.operators, List.forall_mem_singleton.mpr hdeclared⟩ }
  method c m h hfiled _ _ := by
    unfold ClassRecord.addMethod
    by_cases hstatic : m.isStatic = true
    · rw [if_pos hstatic]
      exact { h with staticMethods := c.staticMethods.forall_insert _ _ h.staticMethods hfiled }
    · rw [if_neg hstatic]
      exact { h with methods := c.methods.forall_insert _ _ h.methods hfiled }
  inner _ _ h _ := { h with }
  extend c d hc hd hname _ := by
    -- What is folded in was filed for a class of the same name.
    rcases hd with ⟨hmethods, hstatic, hconstructors, hdestructors, hoperators⟩
    rw [hname] at hmethods hstatic hconstructors hdestructors hoperators
    refine ⟨?_, ?_, ?_, ?_, ?_⟩
    · rw [ClassRecord.methods_extend, ClassRecord.name_extend]
      exact c.methods.forall_union _ hc.methods hmethods
    · rw [ClassRecord.staticMethods_extend, ClassRecord.name_extend]
      exact c.staticMethods.forall_union _ hc.staticMethods hstatic
    · rw [ClassRecord.constructors_extend, ClassRecord.name_extend]
      exact forall_replaceOrAppend _ _ _ _ hc.constructors hconstructors
    · rw [ClassRecord.destructors_extend, ClassRecord.name_extend]
      exact forall_replaceOrAppend _ _ _ _ hc.destructors hdestructors
    · rw [ClassRecord.operators_extend, ClassRecord.name_extend]
      exact forall_replaceOrAppend _ _ _ _ hc.operators hoperators

end Kept

/-- Every member that a header binds is declared in a public section of a body of its class, or is a
    method that the header defines outside of the class. In class templates nothing is filed from
    outside. -/
theorem extractHeader_bindsOnly (code : List Char) (path : Path) (tree : Node) (header : Header)
    (h : extractHeader code path tree = .ok header) :
    (∀ c ∈ header.classes, c.Everywhere
      (ClassRecord.BindsOnly (Declares code tree .isPublic) (DefinesOutOfLine code tree))) ∧
    ∀ t ∈ header.classTemplates, t.record.Everywhere
      (ClassRecord.BindsOnly (Declares code tree .isPublic) fun _ _ => False) := by
  rcases extractHeader_grown h with ⟨hclasses, htemplates⟩
  refine ⟨fun c hc => ?_, fun t ht => ?_⟩
  · exact ((hclasses c hc).everywhere (bindsOnly_kept _ _)).imp fun _ => And.right
  · exact ((htemplates t ht).everywhere (bindsOnly_kept _ _)).imp fun _ => And.right

section Outlined

/-- A class with a private method, and the method defined behind it. -/
def outlinedSource : List Char := "class A { void g(); }; void A::g() {}".toList

/-- A pair of parentheses. -/
def noParameters (start : Nat) : Node :=
  { kind := "parameter_list", named := true, start, stop := start + 2, fields := []
    children := [leaf "(" false start (start + 1), leaf ")" false (start + 1) (start + 2)] }

/-- The brace in front of the members. -/
def bodyOpen : Node :=
  leaf "\x7b" false 8 9

/-- The brace behind the members. -/
def bodyClose : Node :=
  leaf "\x7d" false 20 21

/-- The declaration `void g();` in the class. -/
def privateMember : Node :=
  { kind := "field_declaration", named := true, start := 10, stop := 19
    fields := [("declarator", 1), ("type", 0)]
    children := [leaf "primitive_type" true 10 14,
      { kind := "function_declarator", named := true, start := 15, stop := 18
        fields := [("declarator", 0), ("parameters", 1)]
        children := [leaf "field_identifier" true 15 16, noParameters 16] },
      leaf ";" false 18 19] }

/-- The class. -/
def outlinedClass : Node :=
  { kind := "class_specifier", named := true, start := 0, stop := 21
    fields := [("body", 2), ("name", 1)]
    children := [leaf "class" false 0 5, leaf "type_identifier" true 6 7,
      { kind := "field_declaration_list", named := true, start := 8, stop := 21, fields := []
        children := [bodyOpen, privateMember, bodyClose] }] }

/-- The definition `void A::g() {}`. -/
def outlinedDefinition : Node :=
  { kind := "function_definition", named := true, start := 23, stop := 37
    fields := [("body", 2), ("declarator", 1), ("type", 0)]
    children := [leaf "primitive_type" true 23 27,
      { kind := "function_declarator", named := true, start := 28, stop := 34
        fields := [("declarator", 0), ("parameters", 1)]
        children := [
          { kind := "qualified_identifier", named := true, start := 28, stop := 32
            fields := [("name", 2)]
            children := [leaf "namespace_identifier" true 28 29, leaf "::" false 29 31,
              leaf "identifier" true 31 32] },
          noParameters 32] },
      { kind := "compound_statement", named := true, start := 35, stop := 37, fields := []
        children := [leaf "\x7b" false 35 36, leaf "\x7d" false 36 37] }] }

/-- The tree of the header. -/
def outlinedTree : Node :=
  { kind := "translation_unit", named := true, start := 0, stop := 37, fields := []
    children := [outlinedClass, leaf ";" false 21 22, outlinedDefinition] }

/-- The method as it is filed. -/
def outlinedMethod : Method :=
  { name := "g", fullName := "g()", returnType := some "void" }

/-- The record of the class before methods are filed from outside. -/
def outlinedRecord : ClassRecord :=
  { name := "A", path := some "gp_Test.hxx" }

/-- The record of the header. -/
def outlinedHeader : Header :=
  { Header.ofPath "gp_Test.hxx" with classes := [outlinedRecord.addMethod outlinedMethod] }

theorem parseClass_outlined :
    parseClass outlinedSource ⟨outlinedClass, []⟩ "" = .ok (some { name := "A" }) := by
  have hfile : fileMember outlinedSource ⟨privateMember, [bodyOpen]⟩ .isPrivate { name := "A" } =
      .ok { name := "A" } :=
    fileMember_of_not_public rfl rfl rfl rfl rfl rfl Access.noConfusion rfl
  have hwalk : visitMembers outlinedSource [] [bodyOpen, privateMember, bodyClose]
      ({ name := "A" }, .isPrivate) = .ok ({ name := "A" }, .isPrivate) := by
    rw [visitMembers_cons, bind_eq_ok]
    refine ⟨_, rfl, ?_⟩
    rw [visitMembers_cons, bind_eq_ok]
    refine ⟨({ name := "A" }, .isPrivate), ?_, ?_⟩
    · change (do
        return (← fileMember outlinedSource ⟨privateMember, [bodyOpen]⟩ .isPrivate { name := "A" },
          Access.isPrivate)) = _
      rw [hfile]
      rfl
    · rw [visitMembers_cons, bind_eq_ok]
      refine ⟨_, rfl, ?_⟩
      rw [visitMembers]
      rfl
  exact parseClass_eq_ok rfl (by decide) rfl rfl rfl rfl hwalk

theorem addClass_outlined :
    Collector.addClass outlinedSource ⟨outlinedClass, []⟩ []
      { header := Header.ofPath "gp_Test.hxx" } = .ok {
        header := { Header.ofPath "gp_Test.hxx" with classes := [outlinedRecord] }
        classSlots := (∅ : Std.HashMap String Nat).insert "A" 0 } := by
  rw [Collector.addClass, bind_eq_ok]
  refine ⟨_, parseClass_outlined, ?_⟩
  simp only [Collector.insertClass, Std.HashMap.getElem?_empty]
  rfl

theorem addFunction_outlined (s : Collector) :
    s.addFunction outlinedSource ⟨outlinedDefinition, [leaf ";" false 21 22, outlinedClass]⟩ [] =
      .ok { s with outOfLine := s.outOfLine ++ [("A", outlinedMethod)] } := by
  have hfunction : ((outlinedDefinition.child? "declarator").bind fun d =>
      functionDeclarator? d.node) = some (outlinedDefinition.children[1], []) :=
    functionDeclarator?_of_kind rfl
  simp only [Collector.addFunction, hfunction]
  rfl

/-- The private method is in the record of the class. -/
theorem extractHeader_outlined :
    extractHeader outlinedSource "gp_Test.hxx" outlinedTree = .ok outlinedHeader := by
  rw [extractHeader, outlinedTree, bind_eq_ok]
  refine ⟨{
    header := { Header.ofPath "gp_Test.hxx" with classes := [outlinedRecord] }
    classSlots := (∅ : Std.HashMap String Nat).insert "A" 0
    outOfLine := [("A", outlinedMethod)] }, ?_, ?_⟩
  · rw [visitScope_cons, bind_eq_ok]
    refine ⟨_, addClass_outlined, ?_⟩
    rw [visitScope_cons, bind_eq_ok]
    refine ⟨_, rfl, ?_⟩
    rw [visitScope_cons, bind_eq_ok]
    refine ⟨_, addFunction_outlined _, ?_⟩
    rw [Collector.visitScope]
    rfl
  · simp only [Collector.finish, List.foldlM_cons, List.foldlM_nil, Collector.fileOutOfLine,
      Std.HashMap.getElem?_insert_self]
    rfl

theorem extractHeader_bindsOnly_outlined :
    extractHeader outlinedSource "gp_Test.hxx" outlinedTree = .ok outlinedHeader ∧
      (outlinedRecord.addMethod outlinedMethod).Everywhere
        (ClassRecord.BindsOnly (Declares outlinedSource outlinedTree .isPublic)
          (DefinesOutOfLine outlinedSource outlinedTree)) :=
  ⟨extractHeader_outlined,
    (extractHeader_bindsOnly outlinedSource "gp_Test.hxx" outlinedTree outlinedHeader
      extractHeader_outlined).1 _ (List.mem_singleton_self _)⟩

theorem bodyMembers_outlined : bodyMembers outlinedSource outlinedClass =
    [(.isPrivate, bodyOpen), (.isPrivate, privateMember), (.isPrivate, bodyClose)] := by
  change sections outlinedSource .isPrivate [bodyOpen, privateMember, bodyClose] = _
  rw [sections_cons_of_member (by decide) (by decide),
    sections_cons_of_member (by decide) (by decide),
    sections_cons_of_member (by decide) (by decide), sections]

/-- There is one class in the header. -/
theorem definesClass_outlined (name : String) (n : Node)
    (h : DefinesClass outlinedSource outlinedTree name n) : n = outlinedClass := by
  induction h with
  | outer namespaces item n name hitem hn hname =>
      have hitems : scopeItems outlinedSource [] outlinedTree.children =
          [([], outlinedClass), ([], leaf ";" false 21 22), ([], outlinedDefinition)] := by
        rw [outlinedTree, scopeItems_cons_of_item (by decide) (by decide),
          scopeItems_cons_of_item (by decide) (by decide),
          scopeItems_cons_of_item (by decide) (by decide), scopeItems]
      rw [hitems] at hitem
      simp only [List.mem_cons, Prod.mk.injEq, List.not_mem_nil, or_false] at hitem
      rcases hitem with ⟨_, rfl⟩ | ⟨_, rfl⟩ | ⟨_, rfl⟩
      · exact List.mem_singleton.mp hn
      · exact absurd hn List.not_mem_nil
      · exact absurd hn List.not_mem_nil
  | nested owner n item inner access name _ hitem hinner _ ih =>
      rw [ih, bodyMembers_outlined] at hitem
      simp only [List.mem_cons, Prod.mk.injEq, List.not_mem_nil, or_false] at hitem
      rcases hitem with ⟨_, rfl⟩ | ⟨_, rfl⟩ | ⟨_, rfl⟩
      all_goals
        have hnone : (none : Option Node) = some inner := hinner
        exact absurd hnone (by simp only [reduceCtorEq, not_false_eq_true])

/-- It is not so that a function which is declared in private or protected sections only is not
    bound: the header of the example binds one. -/
theorem extractHeader_binds_private :
    ¬ ∀ (code : List Char) (path : Path) (tree : Node) (header : Header) (owner name : String),
      extractHeader code path tree = .ok header →
      (∀ access, Declares code tree access owner name → access ≠ .isPublic) →
      ∀ c ∈ header.classes, c.name = owner → ∀ entry ∈ c.methods.entries, entry.2.name ≠ name := by
  intro h
  refine h _ _ _ _ "A" "g" extractHeader_outlined (fun access hdeclares => ?_)
    (outlinedRecord.addMethod outlinedMethod) (List.mem_singleton_self _) rfl
    ("void g()", outlinedMethod) (List.mem_singleton_self _) rfl
  rcases hdeclares with ⟨n, item, hn, hitem, _⟩
  rw [definesClass_outlined "A" n hn, bodyMembers_outlined] at hitem
  simp only [List.mem_cons, Prod.mk.injEq, List.not_mem_nil, or_false] at hitem
  rcases hitem with ⟨rfl, _⟩ | ⟨rfl, _⟩ | ⟨rfl, _⟩
  all_goals exact Access.noConfusion

end Outlined

end Extraction

end HeaderBinding
