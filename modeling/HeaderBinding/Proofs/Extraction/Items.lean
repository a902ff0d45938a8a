import HeaderBinding.Proofs.Extraction.Filing
import HeaderBinding.Proofs.Extraction.HeaderScope

/-!
# What Items File

Reading an item of a scope and filing what it gives, one apart from the other.

As with the members of a class, what an item files does not depend on what is filed already. Each
item has a list of things that it files (`itemFilings`), and the walk through a header files the
lists of its items one after the other. What is set aside on the way is filed behind them. So a
header is what filing a single list leads to, and the list can be written down from the tree
(`extractHeader_files`).

Typedefs are never replaced in a header, so they are read off the lists in order, and so is what is
set aside (`Collector.fileAll_adds`).

## Main definitions

* `itemFilings`: The things that an item files, in order.
* `Filing.typedef?`, `Filing.setAside?`: The typedef that is filed, and what is set aside.
* `ItemFiles`: The things that an item may file, with what they are read from.

## Theorems

* `itemFiles_of_mem`: Where the things on the list of an item come from.
* `Collector.itemFilings_of_fileItem`: Filing an item is filing the things on its list.
* `Collector.fileAll_adds`: What is read off the lists.
* `extractHeader_files`: A header is what filing the lists of its items leads to.
-/

namespace HeaderBinding

namespace Extraction

open Syntax

/-- The typedef that is filed, if it is one. -/
def Filing.typedef? : Filing → Option Typedef
  | typedef t => t
  | _ => none

/-- The member function that is set aside, if it is one. -/
def Filing.setAside? : Filing → Option (String × Method)
  | setAside entry => some entry
  | _ => none

section Reading

variable (code : List Char)

/-- What an included header files. -/
def includeItem (n : Node) : Extract (List Filing) := do
  match n.child? "path" with
  | none => return []
  | some path =>
    return [.dependency (String.ofList (unquotePath (← textOf code path.node)))]

/-- What a class files, or one that is only declared. -/
def classItem (n : Located) (namespaces : List String) : Extract (List Filing) := do
  match ← parseClass code n (scopeName namespaces) with
  | some c => return [.record c]
  | none =>
    if (n.node.child? "body").isSome then return []
    match n.node.child? "name" with
    | none => return []
    | some name => return [.forward (qualified (scopeName namespaces) (← nameOf code name.node))]

/-- What an enumeration files. -/
def enumItem (n : Located) (namespaces : List String) : Extract (List Filing) := do
  return ((← enumeration? code n (scopeName namespaces)).map .enumeration).toList

/-- What a template declaration files. -/
def templateItem (n : Node) (namespaces : List String) : Extract (List Filing) := do
  let params ← match n.child? "parameters" with
    | some list => templateParams code list.node
    | none => pure []
  let classes ← (n.located.filterMap Collector.templatedClass?).mapM fun n =>
    parseClass code n (scopeName namespaces)
  return (classes.filterMap id).map (.template · params)

/-- What a function declaration or definition files. -/
def functionItem (n : Located) (namespaces : List String) : Extract (List Filing) := do
  match (n.node.child? "declarator").bind fun d => functionDeclarator? d.node with
  | none => return []
  | some (function, suffix) =>
    match function.child? "declarator" with
    | none => return []
    | some nameNode =>
      if (n.node.child? "type").isNone then return []
      let kind := nameNode.node.kind
      if kind == "qualified_identifier" then
        match Text.splitLastScope? (normalize (← textOf code nameNode.node)) with
        | none => return []
        | some (scope, name) =>
          let m ← callable code n function suffix (String.ofList name)
          return [.setAside (qualified (scopeName namespaces) (String.ofList scope), m)]
      else if kind == "identifier" || kind == "operator_name" then
        let name := String.ofList (normalize (← textOf code nameNode.node))
        let m ← callable code n function suffix name
        let isInline ← if n.node.kind == "function_definition" then pure true
          else hasSpecifier code n.node "inline"
        return [.function {
          name := m.name
          fullName := m.fullName
          args := m.args
          returnType := m.returnType
          comment := m.comment
          isInline }]
      else return []

/-- What the type of a declaration files. -/
def declaredType (n : Located) (namespaces : List String) : Extract (List Filing) :=
  match n.node.child? "type" with
  | some type =>
    if isClassKind type.node.kind then classItem code type namespaces
    else if isEnumKind type.node.kind then enumItem code type namespaces
    else return []
  | none => return []

/-- What an item of a scope files. -/
def itemFilings (n : Located) (namespaces : List String) : Extract (List Filing) :=
  match ScopeItem.ofKind n.node.kind with
  | .include => includeItem code n.node
  | .classType => classItem code n namespaces
  | .enum => enumItem code n namespaces
  | .template => templateItem code n.node namespaces
  | .declaration => do
    return (← declaredType code n namespaces) ++ (← functionItem code n namespaces)
  | .function => functionItem code n namespaces
  | .typedef => return [.typedef (← typedef? code n (scopeName namespaces))]
  | .aliasType => return [.typedef (← alias? code n (scopeName namespaces))]
  | _ => return []

end Reading

section Lists

variable {code : List Char} {n : Located} {namespaces : List String} {filings : List Filing}

/-- An inclusion files one dependency, if it has a path. -/
theorem includeItem_cases {n : Node} (h : includeItem code n = .ok filings) :
    filings = [] ∨ ∃ path, filings = [.dependency path] := by
  unfold includeItem at h
  split at h
  · exact Or.inl (pure_eq_ok.mp h).symm
  · simp only [bind_eq_ok, pure_eq_ok] at h
    rcases h with ⟨text, _, rfl⟩
    exact Or.inr ⟨_, rfl⟩

/-- A class files its record if it has a body, and at most its name otherwise. -/
theorem classItem_cases (h : classItem code n namespaces = .ok filings) :
    filings = [] ∨ (∃ name, filings = [.forward name]) ∨
      ∃ c, filings = [.record c] ∧ parseClass code n (scopeName namespaces) = .ok (some c) := by
  unfold classItem at h
  rw [bind_eq_ok] at h
  rcases h with ⟨found, hfound, h⟩
  cases found with
  | some c => exact Or.inr (Or.inr ⟨c, (pure_eq_ok.mp h).symm, hfound⟩)
  | none =>
      dsimp only at h
      split at h
      · exact Or.inl (pure_eq_ok.mp h).symm
      · split at h
        · exact Or.inl (pure_eq_ok.mp h).symm
        · simp only [bind_eq_ok, pure_eq_ok] at h
          rcases h with ⟨name, _, rfl⟩
          exact Or.inr (Or.inl ⟨_, rfl⟩)

/-- An enumeration is all that it files. -/
theorem enumItem_cases (h : enumItem code n namespaces = .ok filings) :
    filings = [] ∨ ∃ e, filings = [.enumeration e] := by
  unfold enumItem at h
  rw [bind_eq_ok] at h
  rcases h with ⟨found, _, h⟩
  cases found with
  | none => exact Or.inl (pure_eq_ok.mp h).symm
  | some e => exact Or.inr ⟨e, (pure_eq_ok.mp h).symm⟩

/-- The parameters of a template declaration. -/
def templateParameters (n : Node) : List Node :=
  (n.child? "parameters").elim [] (·.node.children)

/-- A template files the records of its classes, with its parameters. -/
theorem mem_templateItem {n : Node} {f : Filing} (h : templateItem code n namespaces = .ok filings)
    (hf : f ∈ filings) : ∃ l c params, l ∈ n.located.filterMap Collector.templatedClass? ∧
      parseClass code l (scopeName namespaces) = .ok (some c) ∧
      collect (templateParam? code) (templateParameters n) = .ok params ∧
      f = .template c params := by
  -- With a list of parameters or without one, the classes are read alike.
  have hclasses : ∃ params found, filings = (found.filterMap id).map (.template · params) ∧
      collect (templateParam? code) (templateParameters n) = .ok params ∧
      (n.located.filterMap Collector.templatedClass?).mapM
        (fun n => parseClass code n (scopeName namespaces)) = .ok found := by
    unfold templateItem at h
    split at h
    · next list hlist =>
      simp only [bind_eq_ok, pure_eq_ok] at h
      rcases h with ⟨params, hparams, found, hfound, rfl⟩
      rw [templateParameters, hlist]
      exact ⟨params, found, rfl, hparams, hfound⟩
    · next hnone =>
      simp only [bind_eq_ok, pure_eq_ok] at h
      rcases h with ⟨params, rfl, found, hfound, rfl⟩
      rw [templateParameters, hnone]
      exact ⟨[], found, rfl, rfl, hfound⟩
  rcases hclasses with ⟨params, found, rfl, hparams, hfound⟩
  rcases List.mem_map.mp hf with ⟨c, hc, rfl⟩
  rcases List.mem_filterMap.mp hc with ⟨parsed, hparsed, rfl⟩
  rcases exists_mem_of_forall₂ ((mapM_eq_ok_iff _ _ _).mp hfound) hparsed with ⟨l, hl, hclass⟩
  exact ⟨l, c, params, hl, hclass, hparams, rfl⟩

/-- A function files itself, or it is set aside if it belongs to a class. -/
theorem functionItem_cases (h : functionItem code n namespaces = .ok filings) :
    filings = [] ∨
    (∃ function f m, ReadsFunction code n function f.name m ∧ f.returnType = m.returnType ∧
      filings = [.function f]) ∨
    ∃ function parts m, (n.node.child? "type").isSome ∧ outOfLineName? code n.node = some parts ∧
      ReadsFunction code n function (String.ofList parts.2) m ∧
      filings = [.setAside (qualified (scopeName namespaces) (String.ofList parts.1), m)] := by
  unfold functionItem at h
  split at h
  · exact Or.inl (pure_eq_ok.mp h).symm
  · next function suffix hfunction =>
    split at h
    · exact Or.inl (pure_eq_ok.mp h).symm
    · next name hname =>
      split at h
      · exact Or.inl (pure_eq_ok.mp h).symm
      · next htype =>
        dsimp only at h
        split at h
        -- The name is qualified, so the function is a member of some class.
        · next hqualified =>
          rw [bind_eq_ok] at h
          rcases h with ⟨text, htext, h⟩
          split at h
          · exact Or.inl (pure_eq_ok.mp h).symm
          · next scope last hparts =>
            simp only [bind_eq_ok, pure_eq_ok] at h
            rcases h with ⟨m, hm, rfl⟩
            have hread : ReadsFunction code n function (String.ofList last) m :=
              ⟨suffix, hfunction, hm⟩
            refine Or.inr (Or.inr ⟨function, (scope, last), m, ?_, ?_, hread, rfl⟩)
            · rw [← Option.not_isNone, eq_false_of_ne_true htype, Bool.not_false]
            · rw [outOfLineName?, declaredFunction?, hfunction, Option.map_some, Option.bind_some,
                hname, Option.filter_some, if_pos hqualified, Option.bind_some, spelled_eq htext,
                hparts]
        · split at h
          · simp only [bind_eq_ok] at h
            rcases h with ⟨text, _, m, hm, h⟩
            split at h
            -- The keyword is only looked for where there is no body.
            all_goals
              simp only [bind_eq_ok, pure_eq_ok] at h
              rcases h with ⟨isInline, _, rfl⟩
              refine Or.inr (Or.inl ⟨function, _, m, ⟨suffix, hfunction, ?_⟩, rfl, rfl⟩)
              rw [(callable_spec hm).1]
              exact hm
          · exact Or.inl (pure_eq_ok.mp h).symm

variable (code n namespaces) in
/-- The things that an item may file, with what they are read from. -/
inductive ItemFiles : Filing → Prop
  | dependency (path : String) : ItemFiles (.dependency path)
  | forward (name : String) : ItemFiles (.forward name)
  | enumeration (e : Enumeration) : ItemFiles (.enumeration e)
  | function (function : Node) (f : FreeFunction) (m : Method)
      (hm : ReadsFunction code n function f.name m) (hreturn : f.returnType = m.returnType) :
      ItemFiles (.function f)
  | typedef (t : Option Typedef) (hkind : ScopeItem.ofKind n.node.kind = .typedef)
      (ht : typedef? code n (scopeName namespaces) = .ok t) : ItemFiles (.typedef t)
  | aliasType (t : Option Typedef) (hkind : ScopeItem.ofKind n.node.kind = .aliasType)
      (ht : alias? code n (scopeName namespaces) = .ok t) : ItemFiles (.typedef t)
  | record (l : Located) (c : ClassRecord) (hl : l.node ∈ itemClasses n.node)
      (hc : parseClass code l (scopeName namespaces) = .ok (some c)) : ItemFiles (.record c)
  | template (l : Located) (c : ClassRecord) (params : List TemplateParam)
      (hkind : ScopeItem.ofKind n.node.kind = .template) (hl : l.node ∈ itemClasses n.node)
      (hc : parseClass code l (scopeName namespaces) = .ok (some c))
      (hparams : collect (templateParam? code) (templateParameters n.node) = .ok params) :
      ItemFiles (.template c params)
  | setAside (function : Node) (parts : List Char × List Char) (m : Method)
      (htype : (n.node.child? "type").isSome) (hparts : outOfLineName? code n.node = some parts)
      (hm : ReadsFunction code n function (String.ofList parts.2) m) :
      ItemFiles (.setAside (qualified (scopeName namespaces) (String.ofList parts.1), m))

/-- What a class of an item files is its record or its name. -/
theorem itemFiles_of_classItem {l : Located} {f : Filing} (hl : l.node ∈ itemClasses n.node)
    (h : classItem code l namespaces = .ok filings) (hf : f ∈ filings) :
    ItemFiles code n namespaces f := by
  rcases classItem_cases h with rfl | ⟨name, rfl⟩ | ⟨c, rfl, hc⟩
  · exact absurd hf List.not_mem_nil
  · obtain rfl := List.mem_singleton.mp hf
    exact .forward name
  · obtain rfl := List.mem_singleton.mp hf
    exact .record l c hl hc

/-- What an enumeration files is the enumeration. -/
theorem itemFiles_of_enumItem {l : Located} {f : Filing}
    (h : enumItem code l namespaces = .ok filings) (hf : f ∈ filings) :
    ItemFiles code n namespaces f := by
  rcases enumItem_cases h with rfl | ⟨e, rfl⟩
  · exact absurd hf List.not_mem_nil
  · obtain rfl := List.mem_singleton.mp hf
    exact .enumeration e

/-- What a function files is read off the function. -/
theorem itemFiles_of_functionItem {f : Filing}
    (h : functionItem code n namespaces = .ok filings) (hf : f ∈ filings) :
    ItemFiles code n namespaces f := by
  rcases functionItem_cases h with rfl | ⟨function, g, m, hm, hreturn, rfl⟩ |
    ⟨function, parts, m, htype, hparts, hm, rfl⟩
  · exact absurd hf List.not_mem_nil
  · obtain rfl := List.mem_singleton.mp hf
    exact .function function g m hm hreturn
  · obtain rfl := List.mem_singleton.mp hf
    exact .setAside function parts m htype hparts hm

/-- Where the things on the list of an item come from. -/
theorem itemFiles_of_mem {f : Filing} (h : itemFilings code n namespaces = .ok filings)
    (hf : f ∈ filings) : ItemFiles code n namespaces f := by
  have hclasses : ∀ l : Located, ∀ found, l.node ∈ itemClasses n.node →
      classItem code l namespaces = .ok found → f ∈ found → ItemFiles code n namespaces f :=
    fun l found hl hfound hf => itemFiles_of_classItem hl hfound hf
  -- The classes of a template are those that are read.
  have htemplate : ∀ l ∈ n.node.located.filterMap Collector.templatedClass?,
      ScopeItem.ofKind n.node.kind = .template → l.node ∈ itemClasses n.node := by
    intro l hl hkind
    rw [itemClasses, hkind]
    exact List.mem_map_of_mem hl
  unfold itemFilings at h
  unfold itemClasses at hclasses
  cases hkind : ScopeItem.ofKind n.node.kind with
  | «include» =>
      simp only [hkind] at h
      rcases includeItem_cases h with rfl | ⟨path, rfl⟩
      · exact absurd hf List.not_mem_nil
      · obtain rfl := List.mem_singleton.mp hf
        exact .dependency path
  | block | namespaceBlock | other =>
      simp only [hkind, pure_eq_ok] at h
      exact absurd (h ▸ hf) List.not_mem_nil
  | classType =>
      simp only [hkind] at h hclasses
      exact hclasses n filings (List.mem_singleton_self _) h hf
  | enum =>
      simp only [hkind] at h
      exact itemFiles_of_enumItem h hf
  | template =>
      simp only [hkind] at h
      rcases mem_templateItem h hf with ⟨l, c, params, hl, hc, hparams, rfl⟩
      exact .template l c params hkind (htemplate l hl hkind) hc hparams
  | function =>
      simp only [hkind] at h
      exact itemFiles_of_functionItem h hf
  | typedef =>
      simp only [hkind, bind_eq_ok, pure_eq_ok] at h
      rcases h with ⟨t, ht, rfl⟩
      obtain rfl := List.mem_singleton.mp hf
      exact .typedef t hkind ht
  | aliasType =>
      simp only [hkind, bind_eq_ok, pure_eq_ok] at h
      rcases h with ⟨t, ht, rfl⟩
      obtain rfl := List.mem_singleton.mp hf
      exact .aliasType t hkind ht
  -- What the type of a declaration files stands in front of what its declarator files.
  | declaration =>
      simp only [hkind, bind_eq_ok, pure_eq_ok] at h hclasses
      rcases h with ⟨first, hfirst, second, hsecond, rfl⟩
      rcases List.mem_append.mp hf with hf | hf
      · unfold declaredType at hfirst
        split at hfirst
        · next type htype =>
          split at hfirst
          · next hclass =>
            refine hclasses type first ?_ hfirst hf
            rw [htype, Option.map_some, Option.filter_some, if_pos hclass]
            exact List.mem_singleton_self _
          · split at hfirst
            · exact itemFiles_of_enumItem hfirst hf
            · exact absurd (pure_eq_ok.mp hfirst ▸ hf) List.not_mem_nil
        · exact absurd (pure_eq_ok.mp hfirst ▸ hf) List.not_mem_nil
      · exact itemFiles_of_functionItem hsecond hf

end Lists

namespace Collector

variable {code : List Char} {n : Located} {namespaces : List String} {s s' : Collector}

/-- Filing a list of one thing is filing this thing. -/
theorem fileAll_singleton (f : Filing) : s.fileAll [f] = s.file f := by
  rw [fileAll, List.foldlM_cons]
  exact bind_pure _

/-- Two lists are filed one after the other. -/
theorem fileAll_append {first second : List Filing} :
    s.fileAll (first ++ second) = s.fileAll first >>= fun s => s.fileAll second := by
  unfold fileAll
  exact List.foldlM_append

/-- An inclusion is added by filing its list. -/
theorem addInclude_eq (n : Node) :
    s.addInclude code n = includeItem code n >>= s.fileAll := by
  unfold addInclude includeItem
  cases n.child? "path" with
  | none => rfl
  | some path =>
      simp only [bind_assoc, pure_bind, fileAll_singleton]
      rfl

/-- So is a class. -/
theorem addClass_eq : s.addClass code n namespaces = classItem code n namespaces >>= s.fileAll := by
  unfold addClass classItem
  rw [bind_assoc]
  refine bind_congr fun found => ?_
  cases found with
  | some c => exact (fileAll_singleton (.record c)).symm
  | none =>
      dsimp only
      split
      · rfl
      · cases n.node.child? "name" with
        | none => rfl
        | some name =>
            simp only [bind_assoc, pure_bind, fileAll_singleton]
            rfl

/-- So is an enumeration. -/
theorem addEnum_eq : s.addEnum code n namespaces = enumItem code n namespaces >>= s.fileAll := by
  unfold addEnum enumItem
  rw [bind_assoc]
  refine bind_congr fun found => ?_
  cases found with
  | none => rfl
  | some e => exact (fileAll_singleton (.enumeration e)).symm

/-- So is a function. -/
theorem addFunction_eq :
    s.addFunction code n namespaces = functionItem code n namespaces >>= s.fileAll := by
  unfold addFunction functionItem
  cases (n.node.child? "declarator").bind fun d => functionDeclarator? d.node with
  | none => rfl
  | some found =>
      rcases found with ⟨function, suffix⟩
      dsimp only
      cases function.child? "declarator" with
      | none => rfl
      | some name =>
          dsimp only
          split
          · rfl
          · split
            · rw [bind_assoc]
              refine bind_congr fun text => ?_
              rcases Text.splitLastScope? (normalize text) with _ | ⟨scope, last⟩
              · rfl
              · simp only [bind_assoc, pure_bind, fileAll_singleton]
                rfl
            · split
              · simp only [bind_assoc]
                refine bind_congr fun text => bind_congr fun m => ?_
                -- Whether the function is inline is read in one case and known in the other.
                split
                all_goals
                  simp only [bind_assoc, pure_bind, fileAll_singleton]
                  rfl
              · rfl

/-- Templates are read and filed in turn, and may as well all be read first. -/
theorem foldlM_insertTemplate {params : List TemplateParam} {classes : List Located}
    (h : classes.foldlM (fun s n => do
      match ← parseClass code n (scopeName namespaces) with
      | some c => s.insertTemplate c params
      | none => return s) s = .ok s') :
    ∃ found, classes.mapM (fun n => parseClass code n (scopeName namespaces)) = .ok found ∧
      s.fileAll ((found.filterMap id).map (.template · params)) = .ok s' := by
  induction classes generalizing s with
  | nil => exact ⟨[], rfl, h⟩
  | cons n classes ih =>
      simp only [List.foldlM_cons, bind_eq_ok] at h
      rcases h with ⟨s₁, ⟨parsed, hparsed, hfile⟩, hrest⟩
      rcases ih hrest with ⟨found, hfound, hall⟩
      -- Reading the next class does not look at what has been filed.
      refine ⟨parsed :: found, ?_, ?_⟩
      · rw [List.mapM_cons, hparsed, hfound]
        rfl
      · cases parsed with
        | none => exact pure_eq_ok.mp hfile ▸ hall
        | some c =>
            change s.fileAll (.template c params :: _) = .ok s'
            rw [fileAll, List.foldlM_cons, bind_eq_ok]
            exact ⟨s₁, hfile, hall⟩

/-- A template that is added has a list, and the list was filed. -/
theorem templateItem_of_addTemplate {n : Node} (h : s.addTemplate code n namespaces = .ok s') :
    ∃ filings, templateItem code n namespaces = .ok filings ∧ s.fileAll filings = .ok s' := by
  unfold addTemplate at h
  unfold templateItem
  cases hparameters : n.child? "parameters" with
  | none =>
      simp only [hparameters, pure_bind] at h ⊢
      rcases foldlM_insertTemplate h with ⟨found, hfound, hall⟩
      simp only [hfound]
      exact ⟨_, rfl, hall⟩
  | some list =>
      simp only [hparameters, bind_eq_ok] at h ⊢
      rcases h with ⟨params, hparams, hfold⟩
      rcases foldlM_insertTemplate hfold with ⟨found, hfound, hall⟩
      exact ⟨_, ⟨params, hparams, found, hfound, rfl⟩, hall⟩

/-- Filing an item is filing the things on its list. -/
theorem itemFilings_of_fileItem (h : fileItem code n namespaces s = .ok s') :
    ∃ filings, itemFilings code n namespaces = .ok filings ∧ s.fileAll filings = .ok s' := by
  unfold fileItem at h
  unfold itemFilings
  cases hkind : ScopeItem.ofKind n.node.kind with
  | «include» =>
      simp only [hkind, addInclude_eq, bind_eq_ok] at h
      exact h
  | classType =>
      simp only [hkind, addClass_eq, bind_eq_ok] at h
      exact h
  | enum =>
      simp only [hkind, addEnum_eq, bind_eq_ok] at h
      exact h
  | template =>
      simp only [hkind] at h
      exact templateItem_of_addTemplate h
  | function =>
      simp only [hkind, addFunction_eq, bind_eq_ok] at h
      exact h
  | typedef | aliasType =>
      simp only [hkind, bind_eq_ok, pure_eq_ok] at h ⊢
      rcases h with ⟨t, ht, rfl⟩
      exact ⟨_, ⟨t, ht, rfl⟩, fileAll_singleton (.typedef t)⟩
  | block | namespaceBlock | other =>
      rw [hkind] at h
      exact ⟨[], rfl, h⟩
  | declaration =>
      -- The type is filed first, and the function behind it.
      have hadd : s.addDeclaration code n namespaces =
          (declaredType code n namespaces >>= s.fileAll) >>= fun s =>
            functionItem code n namespaces >>= s.fileAll := by
        unfold addDeclaration declaredType
        simp only [addClass_eq, addEnum_eq, addFunction_eq]
        cases n.node.child? "type" with
        | none => rfl
        | some type =>
            dsimp only
            split
            · rfl
            · split
              · rfl
              · rfl
      simp only [hkind, hadd, bind_eq_ok] at h ⊢
      rcases h with ⟨s₁, ⟨first, hfirst, hfile₁⟩, second, hsecond, hfile₂⟩
      refine ⟨_, ⟨first, hfirst, second, hsecond, rfl⟩, ?_⟩
      rw [fileAll_append, bind_eq_ok]
      exact ⟨s₁, hfile₁, hfile₂⟩

/-- What filing one thing adds to the typedefs and to what is set aside. -/
theorem file_adds {f : Filing} (h : s.file f = .ok s') :
    s'.header.typedefs = s.header.typedefs ++ f.typedef?.toList ∧
      s'.outOfLine = s.outOfLine ++ f.setAside?.toList := by
  -- Most of what is filed adds to neither of the two.
  have hnone : s.header.typedefs = s.header.typedefs ++ [] ∧ s.outOfLine = s.outOfLine ++ [] :=
    ⟨(List.append_nil _).symm, (List.append_nil _).symm⟩
  cases f with
  | dependency | enumeration => exact pure_eq_ok.mp h ▸ hnone
  | typedef t => exact pure_eq_ok.mp h ▸ ⟨rfl, hnone.2⟩
  | setAside entry => exact pure_eq_ok.mp h ▸ ⟨hnone.1, rfl⟩
  | forward name =>
      change pure (s.addForward name) = Except.ok s' at h
      rw [← pure_eq_ok.mp h, addForward]
      split
      · exact hnone
      · exact hnone
  | function f =>
      change pure (s.insertFunction f) = Except.ok s' at h
      rw [← pure_eq_ok.mp h, insertFunction]
      split
      · exact hnone
      · exact hnone
  | record c =>
      rcases insertClass_cases h with ⟨_, rfl⟩ | ⟨_, _, _, _, rfl⟩
      · exact hnone
      · exact hnone
  | template c params =>
      rcases insertTemplate_cases h with ⟨_, rfl⟩ | ⟨_, _, _, _, rfl⟩
      · exact hnone
      · exact hnone
  | outOfLine entry =>
      rcases fileOutOfLine_cases h with rfl | ⟨_, _, _, _, _, rfl⟩
      · exact hnone
      · exact hnone

/-- What filing several things adds to the typedefs and to what is set aside. -/
theorem fileAll_adds {filings : List Filing} (h : s.fileAll filings = .ok s') :
    s'.header.typedefs = s.header.typedefs ++ filings.filterMap (·.typedef?) ∧
      s'.outOfLine = s.outOfLine ++ filings.filterMap (·.setAside?) := by
  unfold fileAll at h
  induction filings generalizing s with
  | nil =>
      obtain rfl := pure_eq_ok.mp h
      exact ⟨(List.append_nil _).symm, (List.append_nil _).symm⟩
  | cons f filings ih =>
      rw [List.foldlM_cons, bind_eq_ok] at h
      rcases h with ⟨s₁, hfile, hrest⟩
      -- What the first thing adds stands in front of what the others add.
      rw [(ih hrest).1, (ih hrest).2, (file_adds hfile).1, (file_adds hfile).2, List.filterMap_cons,
        List.filterMap_cons, List.append_assoc, List.append_assoc]
      refine ⟨?_, ?_⟩
      · cases f.typedef? with
        | none => rfl
        | some t => rfl
      · cases f.setAside? with
        | none => rfl
        | some entry => rfl

/-- Filing items in order is filing the things on their lists in order. -/
theorem fileAll_of_foldlM {items : List (List String × Located)}
    (h : items.foldlM (fun s item => fileItem code item.2 item.1 s) s = .ok s') :
    ∃ lists, List.Forall₂ (fun item filings => itemFilings code item.2 item.1 = .ok filings)
        items lists ∧ s.fileAll lists.flatten = .ok s' := by
  induction items generalizing s with
  | nil => exact ⟨[], .nil, h⟩
  | cons item items ih =>
      rw [List.foldlM_cons, bind_eq_ok] at h
      rcases h with ⟨s₁, hitem, hrest⟩
      rcases itemFilings_of_fileItem hitem with ⟨filings, hfilings, hfile⟩
      rcases ih hrest with ⟨lists, hlists, hall⟩
      refine ⟨filings :: lists, .cons hfilings hlists, ?_⟩
      rw [List.flatten_cons, fileAll_append, bind_eq_ok]
      exact ⟨s₁, hfile, hall⟩

end Collector

/-- A header is what filing the lists of its items leads to, in the order of the items, with what is
    set aside on the way filed behind them. -/
theorem extractHeader_files {code : List Char} {path : Path} {tree : Node} {header : Header}
    (h : extractHeader code path tree = .ok header) :
    ∃ items : List (List String × Located), ∃ lists s,
      items.map (fun item => (item.1, item.2.node)) = scopeItems code [] tree.children ∧
      List.Forall₂ (fun item filings => itemFilings code item.2 item.1 = .ok filings)
        items lists ∧
      Collector.fileAll { header := Header.ofPath path }
        (lists.flatten ++ (lists.flatten.filterMap (·.setAside?)).map .outOfLine) = .ok s ∧
      header = s.result := by
  rw [extractHeader, bind_eq_ok] at h
  rcases h with ⟨walked, hwalk, h⟩
  simp only [Collector.finish_eq, bind_eq_ok, pure_eq_ok] at h
  rcases h with ⟨s, hfinish, rfl⟩
  rcases visitScope_items hwalk with ⟨items, hitems, hfold⟩
  rcases Collector.fileAll_of_foldlM hfold with ⟨lists, hlists, hall⟩
  refine ⟨items, lists, s, hitems, hlists, ?_, rfl⟩
  -- Nothing is set aside before the walk, so what is there behind it comes from the lists.
  rw [(Collector.fileAll_adds hall).2, List.nil_append] at hfinish
  rw [Collector.fileAll_append, bind_eq_ok]
  exact ⟨walked, hall, hfinish⟩

end Extraction

end HeaderBinding
