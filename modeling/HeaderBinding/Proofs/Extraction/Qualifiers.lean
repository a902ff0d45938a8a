import HeaderBinding.Proofs.Extraction.Declarators
import HeaderBinding.Proofs.Extraction.Sources
import HeaderBinding.Proofs.Extraction.Visibility
import HeaderBinding.Proofs.Syntax.Spelling

/-!
# Qualifiers

Which words of a declaration are left in the type that is recorded.

The types of a record are spelled from parts of the source, and spelling keeps the words of a text.
So the words of a recorded type are those of the parts that it is spelled from. For a function these
are the qualifiers in front of the type and the type. For a data member it is the type alone, and
for a typedef the type and what is left of the declarator without the name. The marks that a
declarator adds to the return type of a function have no words in them.

The grammar makes a qualifier a child of the declaration and not of the type. So what is said of the
words leaves out the qualifiers of data members and typedefs, and the qualifiers of functions that
stand behind the type. A qualifier of a function in front of the type is kept as a word of its own.

## Main definitions

* `returnWords?`, `fieldWords?`, `underlyingWords?`: The words that are kept of a declaration.
* `KeepsReturn`, `KeepsWords`: What is read from a declaration has the words that are kept of it.
* `FiledInWords`, `FiledOutsideInWords`: Filed in a class, in these words.

## Theorems

* `functionDeclarator?_marks`: What a declarator adds to a return type has no words in it.
* `ReadsFunction.keepsReturn`: The words of the return type of a function.
* `keepsWords_of_memberFiles`: Whatever a member files has the words of the member.
* `extractHeader_keepsWords`: The words of all types that a header records.
-/

namespace HeaderBinding

namespace Extraction

open Syntax Text

section Kept

variable (code : List Char)

/-- The words of the parts of the source that nodes cover. -/
def wordsOf (nodes : List Node) : List (List Char) :=
  nodes.flatMap fun n => wholeWords (spelled code n)

/-- The qualifiers of a declaration that stand in front of its type. -/
def frontQualifiers (item : Node) : List Node :=
  ((item.child? "type").map fun type =>
    type.before.reverse.filter (·.kind == "type_qualifier")).getD []

/-- The words that are kept of the declaration of a function. -/
def returnWords? (item : Node) : Option (List (List Char)) :=
  (item.child? "type").map fun type => wordsOf code (frontQualifiers item ++ [type.node])

/-- The words that are kept of the declaration of a data member. -/
def fieldWords? (item : Node) : Option (List (List Char)) :=
  (item.child? "type").map fun type => wordsOf code [type.node]

/-- What is left of a declarator without the name. -/
def declaratorRest (declarator : Node) : List Char :=
  ((declaredIdentifier? declarator).map fun name =>
    between code declarator.start name.start ++ between code name.stop declarator.stop).getD []

/-- The words that are kept of a typedef or an alias. -/
def underlyingWords? (item : Node) : Option (List (List Char)) :=
  (item.child? "type").map fun type =>
    if item.kind = "alias_declaration" then wordsOf code [type.node]
    else wholeWords (aliasedText code type.node) ++
      (firstDeclarator item).flatMap fun declarator => wholeWords (declaratorRest code declarator)

/-- A return type has the words that are kept of the declaration of its function. -/
def KeepsReturn (item : Node) (returnType : Option String) : Prop :=
  returnType.map (fun type => wholeWords type.toList) = returnWords? code item

/-- What a member files has the words that are kept of the member. -/
def KeepsWords (item : Node) : MemberFiling → Prop
  | .operator m | .method m => KeepsReturn code item m.returnType
  | .field d => fieldWords? code item = some (wholeWords d.type.toList)
  | .typedef t => underlyingWords? code item = some (wholeWords t.underlying.toList)
  | _ => True

variable (tree : Node)

/-- A member of a class files a thing, which has the words that are kept of the member. -/
def FiledInWords (owner : String) (f : MemberFiling) : Prop :=
  ∃ item, FiledBy code tree item owner f ∧ KeepsWords code item.node f

/-- An item outside of classes files a method in a class, and its return type has the words that are
    kept of the item. -/
def FiledOutsideInWords (owner : String) (m : Method) : Prop :=
  ∃ item, FiledOutsideBy code tree item owner m ∧ KeepsReturn code item.node m.returnType

end Kept

section Reading

variable {code : List Char}

/-- The marks of pointers and references that lead to a function are no word characters. -/
theorem functionDeclarator?_marks {n function : Node} {suffix : List Char}
    (h : functionDeclarator? n = some (function, suffix)) : ∀ c ∈ suffix, isWordChar c = false := by
  -- The induction follows the search: each pointer or reference on the way puts its marks in front
  -- of those below it, and where the search finds nothing there is nothing to show.
  fun_induction functionDeclarator? n generalizing suffix with
  | case1 n _ =>
      rw [Option.some.injEq, Prod.mk.injEq] at h
      rw [← h.2]
      exact fun _ hc => absurd hc List.not_mem_nil
  | case2 n _ _ inner _ _ ih =>
      simp only [Option.map_eq_some_iff, Prod.exists, Prod.mk.injEq] at h
      rcases h with ⟨_, marks, hmarks, rfl, rfl⟩
      rw [List.forall_mem_cons, List.forall_mem_cons]
      exact ⟨by decide, by decide, ih hmarks⟩
  | case4 =>
      rename_i mark inner _ _ ih
      simp only [Option.map_eq_some_iff, Prod.exists, Prod.mk.injEq] at h
      rcases h with ⟨_, marks, hmarks, rfl, rfl⟩
      refine List.forall_mem_append.mpr ⟨?_, ih hmarks⟩
      unfold mark
      split
      · rw [List.forall_mem_cons, List.forall_mem_cons, List.forall_mem_singleton]
        exact ⟨by decide, by decide, by decide⟩
      · rw [List.forall_mem_cons, List.forall_mem_singleton]
        exact ⟨by decide, by decide⟩
  | case3 | case5 | case6 => exact absurd h (by simp only [reduceCtorEq, not_false_eq_true])

theorem wholeWords_spell (text : List Char) :
    wholeWords (spell text).toList = wholeWords text := by
  rw [spell, String.toList_ofList, wholeWords_spellType]

/-- The words of a return type are those of the qualifiers in front of the type and of the type,
    whatever marks the declarator adds. -/
theorem keepsReturn_of_returnType? {item : Node} {suffix : List Char} {found : Option String}
    (hsuffix : ∀ c ∈ suffix, isWordChar c = false)
    (h : returnType? code item suffix = .ok found) : KeepsReturn code item found := by
  unfold returnType? at h
  unfold KeepsReturn returnWords?
  rcases htype : item.child? "type" with _ | type
  · rw [htype, Option.mapM_none, pure_eq_ok] at h
    rw [← h]
    rfl
  · rw [htype, Option.mapM_some] at h
    simp only [map_eq_pure_bind, bind_eq_ok, pure_eq_ok] at h
    rcases h with ⟨_, ⟨parts, hparts, rfl⟩, rfl⟩
    have hfront : frontQualifiers item =
        type.before.reverse.filter (·.kind == "type_qualifier") := by
      rw [frontQualifiers, htype]
      rfl
    have hspelled : ∀ {nodes : List Node} {texts : List (List Char)},
        nodes.mapM (textOf code) = .ok texts → texts = nodes.map (spelled code) := by
      intro nodes texts htexts
      rw [mapM_eq_ok_iff] at htexts
      induction htexts with
      | nil => rfl
      | cons hnode _ ih => rw [List.map_cons, spelled_eq hnode, ih]
    rw [Option.map_some, Option.map_some, wholeWords_spell, wholeWords_append_marks _ _ hsuffix,
      wholeWords_joinWith ' ' (by decide), hspelled hparts, List.flatMap_map, hfront, wordsOf]

theorem returnType?_of_callable {declaration : Located} {function : Node} {suffix : List Char}
    {name : String} {m : Method} (h : callable code declaration function suffix name = .ok m) :
    returnType? code declaration.node suffix = .ok m.returnType := by
  unfold callable at h
  split at h
  all_goals
    simp only [bind_eq_ok, pure_eq_ok] at h
    rcases h with ⟨args, _, type, htype, _, _, _, _, _, _, _, _, _, _, rfl⟩
    exact htype

/-- A function that is read from a declaration has the words of it. -/
theorem ReadsFunction.keepsReturn {declaration : Located} {function : Node} {name : String}
    {m : Method} (h : ReadsFunction code declaration function name m) :
    KeepsReturn code declaration.node m.returnType := by
  rcases h with ⟨suffix, hfunction, hm⟩
  rcases Option.bind_eq_some_iff.mp hfunction with ⟨declarator, _, hmarks⟩
  exact keepsReturn_of_returnType? (functionDeclarator?_marks hmarks)
    (returnType?_of_callable hm)

/-- A qualifier in front of the type is left as a word, if it is one. -/
theorem mem_returnWords? {item qualifier : Node} {kept : List (List Char)}
    (h : returnWords? code item = some kept) (hqualifier : qualifier ∈ frontQualifiers item)
    (hword : Identifier (spelled code qualifier)) : spelled code qualifier ∈ kept := by
  rcases Option.map_eq_some_iff.mp h with ⟨type, _, rfl⟩
  refine List.mem_flatMap.mpr ⟨qualifier, List.mem_append_left _ hqualifier, ?_⟩
  rw [wholeWords_identifier _ hword]
  exact List.mem_singleton_self _

/-- A typedef or an alias has the words that are kept of it. -/
theorem underlyingWords?_of_mem {item : Node} {scope : String} {t : String × String}
    (h : t ∈ declaredTypedefs code scope item (firstDeclarator item)) :
    underlyingWords? code item = some (wholeWords t.2.toList) := by
  unfold declaredTypedefs at h
  unfold underlyingWords?
  split at h
  · next hkind =>
    have hnot : item.kind ≠ "alias_declaration" := by
      rw [hkind]
      decide
    rcases List.mem_filterMap.mp h with ⟨declarator, hdeclarator, htypedef⟩
    have hfirst : firstDeclarator item = [declarator] := by
      rw [firstDeclarator, Option.mem_toList] at hdeclarator
      rw [firstDeclarator, hdeclarator, Option.toList_some]
    unfold typedefOf? at htypedef
    split at htypedef
    · next type name htype hname =>
      -- The blank behind the type keeps its last word apart from the rest of the declarator.
      rw [Option.some.injEq] at htypedef
      rw [htype, Option.map_some, if_neg hnot, hfirst, List.flatMap_singleton, ← htypedef,
        wholeWords_spell, declaratorRest, hname, Option.map_some, Option.getD_some,
        List.append_assoc, List.append_assoc, List.singleton_append,
        wholeWords_append_cons _ ' ' _ (by decide)]
    · exact absurd htypedef (by simp only [reduceCtorEq, not_false_eq_true])
  · split at h
    · next hkind =>
      rw [Option.mem_toList] at h
      unfold aliasOf? at h
      split at h
      · next name type _ htype =>
        rw [Option.some.injEq] at h
        rw [htype, Option.map_some, if_pos hkind, ← h, wholeWords_spell, wordsOf,
          List.flatMap_singleton]
      · exact absurd h (by simp only [reduceCtorEq, not_false_eq_true])
    · exact absurd h List.not_mem_nil

/-- Whatever a member files has the words of the member. -/
theorem keepsWords_of_memberFiles {item : Located} {access : Access} {owner : String}
    {f : MemberFiling} (h : MemberFiles code item access owner f) :
    KeepsWords code item.node f := by
  cases h with
  | operator m _ hm _ | method m _ hm _ _ =>
      -- How the function was found does not matter, only that it was read from this declaration.
      rcases hm with ⟨function, name, _, hread⟩
      exact hread.keepsReturn
  | field declarator d _ _ hd =>
      rcases fieldFilings_cases hd with ⟨_, hnone⟩ | ⟨type, name, isStatic, htype, _, _, hfield⟩
      · exact absurd hnone (List.cons_ne_nil _ _)
      · obtain rfl := MemberFiling.field.inj (List.cons.inj hfield).1
        change fieldWords? code item.node = some (wholeWords (spell _).toList)
        rw [fieldWords?, htype, Option.map_some, wholeWords_spell, wordsOf, List.flatMap_singleton]
  | typedef t hkind ht =>
      have hmem : (t.name, t.underlying) ∈
          declaredTypedefs code "" item.node (firstDeclarator item.node) := by
        rw [declaredTypedefs_of_typedef? ((memberItem_eq_typedef_iff _).mp hkind) ht]
        exact List.mem_singleton_self _
      exact underlyingWords?_of_mem hmem
  | aliasType t hkind ht =>
      have hmem : (t.name, t.underlying) ∈
          declaredTypedefs code "" item.node (firstDeclarator item.node) := by
        rw [declaredTypedefs_of_alias? ((memberItem_eq_aliasType_iff _).mp hkind) ht]
        exact List.mem_singleton_self _
      exact underlyingWords?_of_mem hmem
  | _ => trivial

end Reading

section Recorded

variable {code : List Char} {tree : Node}

theorem filedInWords_of_filed {owner : String} {f : MemberFiling} (h : Filed code tree owner f) :
    FiledInWords code tree owner f := by
  rcases h with ⟨item, n, access, hn, hitem, hfiles⟩
  exact ⟨item, ⟨n, access, hn, hitem, hfiles⟩, keepsWords_of_memberFiles hfiles⟩

theorem filedOutsideInWords_of_filedOutside {owner : String} {m : Method}
    (h : FiledOutside code tree owner m) : FiledOutsideInWords code tree owner m := by
  rcases h with ⟨item, namespaces, function, parts, hitem, htype, hparts, howner, hread⟩
  exact ⟨item, ⟨namespaces, function, parts, hitem, htype, hparts, howner, hread⟩,
    hread.keepsReturn⟩

theorem FiledInside.inWords {c : ClassRecord} (h : FiledInside code tree c) :
    c.Everywhere (·.MadeOf (FiledInWords code tree) (FiledOutsideInWords code tree)) :=
  h.imp fun _ hc => hc.2.imp (fun _ => filedInWords_of_filed) fun _ => False.elim

end Recorded

/-- The parts of every class record of a header, in nested classes and in templates too, have the
    words that are kept of the declarations that file them, and so have the functions and typedefs
    outside of classes. Every qualifier in front of the type of a function is among these words. -/
theorem extractHeader_keepsWords {code : List Char} {path : Path} {tree : Node} {header : Header}
    (h : extractHeader code path tree = .ok header) :
    (∀ c ∈ header.classes ++ header.classTemplates.map (·.record),
      c.Everywhere (·.MadeOf (FiledInWords code tree) (FiledOutsideInWords code tree))) ∧
    (∀ f ∈ header.functions ++ header.operators, ∃ item,
      FunctionFiledBy code tree item f ∧ KeepsReturn code item.node f.returnType) ∧
    (∀ t ∈ header.typedefs, ∃ entry ∈ scopeItems code [] tree.children,
      (t.name, t.underlying) ∈
        declaredTypedefs code (scopeName entry.1) entry.2 (firstDeclarator entry.2) ∧
      underlyingWords? code entry.2 = some (wholeWords t.underlying.toList)) ∧
    ∀ item kept, returnWords? code item = some kept → ∀ qualifier ∈ frontQualifiers item,
      Identifier (spelled code qualifier) → spelled code qualifier ∈ kept := by
  rcases extractHeader_madeOf h with ⟨hclasses, htemplates, hfunctions, hoperators⟩
  refine ⟨List.forall_mem_append.mpr ⟨fun c hc => ?_, List.forall_mem_map.mpr fun t ht => ?_⟩,
    fun f hf => ?_, fun t ht => ?_, fun item kept hkept qualifier => mem_returnWords? hkept⟩
  · have hhere := (hclasses c hc).here.imp (fun _ => filedInWords_of_filed)
      fun _ => filedOutsideInWords_of_filedOutside
    exact ClassRecord.Everywhere.mk c hhere fun entry hentry =>
      ((hclasses c hc).nested entry hentry).inWords
  · exact (htemplates t ht).inWords
  · rcases List.forall_mem_append.mpr ⟨hfunctions, hoperators⟩ f hf with ⟨item, hfiled⟩
    rcases id hfiled with ⟨_, _, m, _, hread, hreturn⟩
    exact ⟨item, hfiled, hreturn ▸ hread.keepsReturn⟩
  · have hmem := List.mem_map_of_mem (f := fun t : Typedef => (t.name, t.underlying)) ht
    rw [extractHeader_typedefs h] at hmem
    rcases List.mem_flatMap.mp hmem with ⟨entry, hentry, hdeclared⟩
    exact ⟨entry, hentry, hdeclared, underlyingWords?_of_mem hdeclared⟩

section Constant

/-- A header with a function that returns a constant. -/
def constantSource : List Char :=
  "const int f();".toList

/-- The qualifier `const`. -/
def constQualifier (start : Nat) : Node :=
  { kind := "type_qualifier", named := true, start, stop := start + 5, fields := []
    children := [leaf "const" false start (start + 5)] }

/-- The declaration of the function. -/
def constantFunction : Node :=
  { kind := "declaration", named := true, start := 0, stop := 14
    fields := [("declarator", 2), ("type", 1)]
    children := [constQualifier 0, leaf "primitive_type" true 6 9,
      { kind := "function_declarator", named := true, start := 10, stop := 13
        fields := [("declarator", 0), ("parameters", 1)]
        children := [leaf "identifier" true 10 11, noParameters 11] },
      leaf ";" false 13 14] }

/-- The tree of the header. -/
def constantTree : Node :=
  { kind := "translation_unit", named := true, start := 0, stop := 14, fields := []
    children := [constantFunction] }

/-- The function as it is filed. -/
def constantRecord : FreeFunction :=
  { name := "f", fullName := "f()", returnType := some "const int" }

/-- The record of the header. -/
def constantHeader : Header :=
  { Header.ofPath "gp_Test.hxx" with functions := [constantRecord] }

theorem extractHeader_constant :
    extractHeader constantSource "gp_Test.hxx" constantTree = .ok constantHeader := by
  have hfunction : ((constantFunction.child? "declarator").bind fun d =>
      functionDeclarator? d.node) = some (constantFunction.children[2], []) :=
    functionDeclarator?_of_kind rfl
  rw [extractHeader, constantTree, bind_eq_ok]
  refine ⟨{ header := constantHeader }, ?_, rfl⟩
  rw [visitScope_cons, bind_eq_ok]
  refine ⟨{ header := constantHeader }, ?_, ?_⟩
  · change Collector.addDeclaration constantSource ⟨constantFunction, []⟩ []
      { header := Header.ofPath "gp_Test.hxx" } = _
    rw [Collector.addDeclaration]
    simp only [Collector.addFunction, hfunction]
    rfl
  · rw [Collector.visitScope]
    rfl

theorem extractHeader_keepsWords_constant :
    extractHeader constantSource "gp_Test.hxx" constantTree = .ok constantHeader ∧
      (∃ item, FunctionFiledBy constantSource constantTree item constantRecord ∧
        KeepsReturn constantSource item.node (some "const int")) ∧
      spelled constantSource (constQualifier 0) ∈ ["const".toList, "int".toList] := by
  rcases extractHeader_keepsWords extractHeader_constant with ⟨_, hfunctions, _, hfront⟩
  have hkept : returnWords? constantSource constantFunction =
      some ["const".toList, "int".toList] := by
    decide
  exact ⟨extractHeader_constant, hfunctions _ (List.mem_singleton_self _),
    hfront _ _ hkept _ (List.mem_singleton_self _) (by decide)⟩

/-- A class with a data member that is a constant. -/
def constFieldSource : List Char :=
  "class A { public: const int x; };".toList

/-- The declaration `const int x;`. -/
def constField : Node :=
  { kind := "field_declaration", named := true, start := 18, stop := 30
    fields := [("declarator", 2), ("type", 1)]
    children := [constQualifier 18, leaf "primitive_type" true 24 27,
      leaf "field_identifier" true 28 29, leaf ";" false 29 30] }

/-- The data member is recorded without its qualifier. -/
theorem parseClass_constField :
    parseClass constFieldSource ⟨publicClass constField, []⟩ "" = .ok (some intFieldRecord) := by
  refine parseClass_publicClass rfl rfl rfl ?_
  rw [fileMember_eq, memberFilings_of_plain rfl rfl,
    declaratorFilings_of_isIdentifier rfl rfl rfl rfl rfl rfl]
  rfl

/-- It is not so that the type of a data member has every qualifier of its declaration: a constant
    is recorded as if it were none. -/
theorem parseClass_fieldQualifier_lost :
    ¬ ∀ (code : List Char) (n : Located) (scope : String) (c : ClassRecord),
      parseClass code n scope = .ok (some c) → ∀ entry ∈ bodyMembers code n.node,
        ∀ d ∈ declaredFields code entry.1 entry.2 (firstDeclarator entry.2), d ∈ c.fields →
          ∀ qualifier ∈ entry.2.children, qualifier.kind = "type_qualifier" →
            spelled code qualifier ∈ ["const".toList, "volatile".toList] →
            spelled code qualifier ∈ wholeWords d.type.toList := by
  intro h
  have hmember := ((@mem_bodyMembers_publicClass constFieldSource constField rfl rfl
    (.isPublic, constField)).mpr rfl).1
  have hfield : dataMember? constFieldSource constField (leaf "field_identifier" true 28 29) =
      some { name := "x", type := "int" } := by
    have hname : declaredIdentifier? (leaf "field_identifier" true 28 29) = some _ :=
      declaredIdentifier?_of_isIdentifier rfl
    have hnone : functionDeclarator? (leaf "field_identifier" true 28 29) = none :=
      functionDeclarator?_of_isIdentifier rfl
    simp only [dataMember?, hnone, hname]
    rfl
  have hdeclared : { name := "x", type := "int" } ∈ declaredFields constFieldSource .isPublic
      constField (firstDeclarator constField) := by
    rw [declaredFields, if_pos ⟨rfl, rfl⟩]
    exact List.mem_filterMap.mpr ⟨_, List.mem_singleton_self _, hfield⟩
  have hlost := h _ _ _ _ parseClass_constField _ hmember _ hdeclared (List.mem_singleton_self _)
    (constQualifier 18) List.mem_cons_self rfl (by decide)
  exact absurd hlost (by decide)

end Constant

end Extraction

end HeaderBinding
