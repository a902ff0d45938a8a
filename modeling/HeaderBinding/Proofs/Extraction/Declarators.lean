import HeaderBinding.Proofs.Dict
import HeaderBinding.Proofs.Extraction.Items
import HeaderBinding.Proofs.Extraction.Members

/-!
# Declarators

Which of the names in a declaration are recorded.

A declaration may give several names to things of one type, with commas between them. Data members
and typedefs are looked up by their type and their declarator, and a field name of the grammar means
one child only. So of the declarators of a declaration the first is read, and the names behind the
commas are passed over (`firstDeclarator`, `laterDeclarators`).

Nothing else gets lost. The data members of a class are those that the first declarators of its
public members declare, in order, and the same holds of the typedefs of a class and of a header,
where those of a class are filed under their names. So a declaration that has a single declarator is
recorded as a whole (`recorded_by_firstDeclarator`).

## Main definitions

* `declarators`: The declarators of a declaration, the first and those behind commas.
* `dataMember?`, `typedefOf?`, `aliasOf?`: What one declarator declares.
* `declaredFields`, `declaredTypedefs`: What a member or an item declares by some declarators.

## Theorems

* `typedef?_spec`, `alias?_spec`: What is recorded of a typedef and of an alias.
* `fields_memberFilings`, `typedefs_memberFilings`: What is on the list of a member.
* `parseClass_fields`, `parseClass_typedefs`: The data members and typedefs of a class.
* `extractHeader_typedefs`: The typedefs of a header.
* `recorded_by_firstDeclarator`: What is recorded of any declaration.
-/

namespace HeaderBinding

namespace Dict

variable {α β : Type}

/-- An entry keeps its place among the others when all values are changed. -/
theorem map_insertEntry (f : α → β) (key : String) (value : α) (entries : List (String × α)) :
    (insertEntry key value entries).map (fun entry => (entry.1, f entry.2)) =
      insertEntry key (f value) (entries.map fun entry => (entry.1, f entry.2)) := by
  induction entries with
  | nil => rfl
  | cons entry rest ih =>
      unfold insertEntry
      rw [List.map_cons]
      -- The entry is replaced, stands in front of the first, or goes further back.
      by_cases heq : key = entry.1
      · simp only [if_pos heq, List.map_cons]
      · by_cases hlt : key < entry.1
        · simp only [if_neg heq, if_pos hlt, List.map_cons]
        · simp only [if_neg heq, if_neg hlt, List.map_cons, ih]

/-- Putting values in and changing all of them gives what putting the changed values in gives. -/
theorem map_foldl_insert (f : α → β) (key : α → String) (values : List α) (d : Dict α) :
    (values.foldl (fun d value => d.insert (key value) value) d).map f =
      (values.map fun value => (key value, f value)).foldl
        (fun d entry => d.insert entry.1 entry.2) (d.map f) := by
  induction values generalizing d with
  | nil => rfl
  | cons value rest ih =>
      rw [List.foldl_cons, ih, List.map_cons, List.foldl_cons]
      congr 1
      exact congrArg Dict.mk (map_insertEntry f (key value) value d.entries)

/-- Changing values leaves the keys as they are. -/
theorem keys_map (f : α → β) (d : Dict α) : (d.map f).keys = d.keys := by
  unfold keys map
  rw [List.map_map]
  rfl

end Dict

namespace Extraction

open Syntax

/-- The nodes right behind a comma. -/
def behindCommas : List Node → List Node
  | first :: second :: rest =>
    if first.kind = "," then second :: behindCommas (second :: rest)
    else behindCommas (second :: rest)
  | _ => []

/-- The declarator that the field name of a declaration means. -/
def firstDeclarator (item : Node) : List Node :=
  ((item.child? "declarator").map (·.node)).toList

/-- The declarators behind the commas of a declaration. -/
def laterDeclarators (item : Node) : List Node :=
  behindCommas item.children

/-- The declarators of a declaration. -/
def declarators (item : Node) : List Node :=
  firstDeclarator item ++ laterDeclarators item

section Declared

variable (code : List Char)

/-- The source between two offsets, or nothing where there is no such part of it. -/
def between (start stop : Nat) : List Char :=
  (Text.slice? code start stop).getD []

/-- A child of a declaration is a keyword or a specifier spelled like it. -/
def isSpecified (item : Node) (keyword : String) : Bool :=
  item.children.any fun child => child.kind == keyword ||
    (["storage_class_specifier", "virtual", "virtual_function_specifier"].contains child.kind &&
      spelled code child == keyword.toList)

/-- The data member that a declarator declares. What leads to a function is none. -/
def dataMember? (item declarator : Node) : Option DataMember :=
  if (functionDeclarator? declarator).isSome then none
  else
    match item.child? "type", declaredIdentifier? declarator with
    | some type, some name => some {
        name := String.ofList (spelled code name)
        type := spell (spelled code type.node)
        isStatic := isSpecified code item "static" }
    | _, _ => none

/-- The spelling of a type that a typedef names. One with a body is spelled by its own name. -/
def aliasedText (type : Node) : List Char :=
  if (type.child? "body").isSome then
    ((type.child? "name").map fun name => spelled code name.node).getD []
  else spelled code type

/-- The name and the type that a declarator of a typedef declares. -/
def typedefOf? (scope : String) (item declarator : Node) : Option (String × String) :=
  match item.child? "type", declaredIdentifier? declarator with
  | some type, some name => some (qualified scope (String.ofList (spelled code name)),
      spell (aliasedText code type.node ++ [' '] ++ between code declarator.start name.start ++
        between code name.stop declarator.stop))
  | _, _ => none

/-- The name and the type that an alias declares. -/
def aliasOf? (scope : String) (item : Node) : Option (String × String) :=
  match item.child? "name", item.child? "type" with
  | some name, some type => some (qualified scope (String.ofList (spelled code name.node)),
      spell (spelled code type.node))
  | _, _ => none

/-- The data members that some declarators of a member declare, if the member is public. -/
def declaredFields (access : Access) (item : Node) (named : List Node) : List DataMember :=
  if MemberItem.ofKind item.kind = .member ∧ access = .isPublic then
    named.filterMap (dataMember? code item)
  else []

/-- The names and types that some declarators of a typedef declare. An alias has no declarator. -/
def declaredTypedefs (scope : String) (item : Node) (named : List Node) : List (String × String) :=
  if item.kind = "type_definition" then named.filterMap (typedefOf? code scope item)
  else if item.kind = "alias_declaration" then (aliasOf? code scope item).toList
  else []

end Declared

section Reading

variable {code : List Char} {n : Located} {access : Access} {owner scope : String}

/-- A part of the source that could be taken is the part between the two offsets. -/
theorem between_eq {start stop : Nat} {text : List Char} (h : slice code start stop = .ok text) :
    between code start stop = text := by
  unfold slice at h
  unfold between
  cases hslice : Text.slice? code start stop with
  | none =>
      rw [hslice] at h
      exact absurd h (by simp only [reduceCtorEq, not_false_eq_true])
  | some found =>
      rw [hslice] at h
      exact Except.ok.inj h

/-- A keyword that was looked for with success is there, and one that was not found is not. -/
theorem isSpecified_eq {item : Node} {keyword : String} {found : Bool}
    (h : hasSpecifier code item keyword = .ok found) : isSpecified code item keyword = found := by
  -- One child after the other, each is decided the same way in both.
  refine any_eq_of_anyM (fun child _ b hchild => ?_) h
  by_cases hkeyword : (child.kind == keyword) = true
  · rw [if_pos hkeyword] at hchild
    rw [hkeyword, Bool.true_or]
    exact pure_eq_ok.mp hchild
  · rw [if_neg hkeyword] at hchild
    rw [eq_false_of_ne_true hkeyword, Bool.false_or]
    -- Only what may be such a keyword is spelled out.
    split at hchild
    · next hspecifier =>
      rw [bind_eq_ok] at hchild
      rcases hchild with ⟨text, htext, hchild⟩
      rw [hspecifier, Bool.true_and, spelled_eq htext]
      exact pure_eq_ok.mp hchild
    · next hspecifier =>
      rw [eq_false_of_ne_true hspecifier, Bool.false_and]
      exact pure_eq_ok.mp hchild

/-- What was spelled out of an aliased type is its spelling. -/
theorem aliasedText_eq {type : Node} {text : List Char} (h : aliasedType code type = .ok text) :
    aliasedText code type = text := by
  unfold aliasedType at h
  unfold aliasedText
  split
  · next hbody =>
    rw [if_pos hbody] at h
    -- A type with a body but no name has nothing to be spelled by.
    cases hname : type.child? "name" with
    | none =>
        rw [hname] at h
        exact pure_eq_ok.mp h
    | some name =>
        rw [hname] at h
        exact spelled_eq h
  · next hbody =>
    rw [if_neg hbody] at h
    exact spelled_eq h

/-- The first declarator of a typedef is recorded. -/
theorem typedef?_spec {found : Option Typedef} (h : typedef? code n scope = .ok found) :
    (found.map fun t => (t.name, t.underlying)).toList =
      (firstDeclarator n.node).filterMap (typedefOf? code scope n.node) := by
  unfold typedef? at h
  unfold firstDeclarator typedefOf?
  -- Nothing is read without a type, a declarator and a name in it, and nothing is declared then.
  rcases htype : n.node.child? "type" with _ | type
  · simp only [htype] at h
    rw [← pure_eq_ok.mp h]
    exact (List.filterMap_eq_nil_iff.mpr fun _ _ => rfl).symm
  · rcases hdeclarator : n.node.child? "declarator" with _ | declarator
    · simp only [htype, hdeclarator] at h
      rw [← pure_eq_ok.mp h]
      rfl
    · rcases hname : declaredIdentifier? declarator.node with _ | name
      · simp only [htype, hdeclarator, hname] at h
        rw [← pure_eq_ok.mp h]
        simp only [Option.map_some, Option.toList_some, List.filterMap_cons, hname,
          List.filterMap_nil, Option.map_none, Option.toList_none]
      · simp only [htype, hdeclarator, hname, nameOf, bind_eq_ok, pure_eq_ok] at h
        rcases h with ⟨base, hbase, front, hfront, back, hback, _, ⟨text, htext, rfl⟩, _, _, rfl⟩
        simp only [Option.map_some, Option.toList_some, List.filterMap_cons, hname,
          List.filterMap_nil, aliasedText_eq hbase, between_eq hfront, between_eq hback,
          spelled_eq htext]

/-- An alias is recorded by its name and its type. -/
theorem alias?_spec {found : Option Typedef} (h : alias? code n scope = .ok found) :
    found.map (fun t => (t.name, t.underlying)) = aliasOf? code scope n.node := by
  unfold alias? at h
  unfold aliasOf?
  rcases hname : n.node.child? "name" with _ | name
  · simp only [hname] at h
    rw [← pure_eq_ok.mp h]
    rfl
  · rcases htype : n.node.child? "type" with _ | type
    · simp only [hname, htype] at h
      rw [← pure_eq_ok.mp h]
      rfl
    · simp only [hname, htype, nameOf, bind_eq_ok, pure_eq_ok] at h
      rcases h with ⟨_, ⟨text, htext, rfl⟩, spelling, hspelling, _, _, rfl⟩
      simp only [Option.map_some, spelled_eq htext, spelled_eq hspelling]

/-- What a typedef declares by its first declarator is what is read of it. -/
theorem declaredTypedefs_of_typedef? {found : Option Typedef}
    (hkind : n.node.kind = "type_definition") (h : typedef? code n scope = .ok found) :
    declaredTypedefs code scope n.node (firstDeclarator n.node) =
      (found.map fun t => (t.name, t.underlying)).toList := by
  rw [declaredTypedefs, if_pos hkind, typedef?_spec h]

/-- What an alias declares is what is read of it. -/
theorem declaredTypedefs_of_alias? {found : Option Typedef}
    (hkind : n.node.kind = "alias_declaration") (h : alias? code n scope = .ok found) :
    declaredTypedefs code scope n.node (firstDeclarator n.node) =
      (found.map fun t => (t.name, t.underlying)).toList := by
  -- An alias is no typedef, so the second case of the definition applies.
  have hnot : n.node.kind ≠ "type_definition" := by
    rw [hkind]
    decide
  rw [declaredTypedefs, if_neg hnot, if_pos hkind, alias?_spec h]

end Reading

section Kinds

variable (kind : String)

/-- Among the members of a class, typedefs are of one kind. -/
theorem memberItem_eq_typedef_iff :
    MemberItem.ofKind kind = .typedef ↔ kind = "type_definition" := by
  constructor
  · intro h
    unfold MemberItem.ofKind at h
    grind
  · rintro rfl
    decide

/-- Aliases are of another one. -/
theorem memberItem_eq_aliasType_iff :
    MemberItem.ofKind kind = .aliasType ↔ kind = "alias_declaration" := by
  constructor
  · intro h
    unfold MemberItem.ofKind at h
    grind
  · rintro rfl
    decide

/-- So they are among the items of a scope. -/
theorem scopeItem_eq_typedef_iff :
    ScopeItem.ofKind kind = .typedef ↔ kind = "type_definition" := by
  constructor
  · intro h
    unfold ScopeItem.ofKind at h
    grind
  · rintro rfl
    decide

/-- Aliases are of the same kind there. -/
theorem scopeItem_eq_aliasType_iff :
    ScopeItem.ofKind kind = .aliasType ↔ kind = "alias_declaration" := by
  constructor
  · intro h
    unfold ScopeItem.ofKind at h
    grind
  · rintro rfl
    decide

end Kinds

section Members

variable {code : List Char} {n : Located} {access : Access} {owner : String}
  {filings : List MemberFiling}

/-- A function files no data member. -/
theorem fields_functionFilings {function : Node} {suffix : List Char}
    (h : functionFilings code n function suffix = .ok filings) :
    filings.filterMap (·.field?) = [] := by
  rcases functionFilings_cases h with ⟨_, rfl⟩ | ⟨_, m, _, _, hcases⟩
  · rfl
  -- A destructor, a constructor, or a function that returns something.
  · rcases hcases with ⟨_, rfl⟩ | ⟨_, _, rfl⟩ | ⟨_, _, rfl⟩
    · rfl
    · rfl
    · unfold returningFilings
      split_ifs
      all_goals rfl

/-- Of the declarators of a member, the one that is filed as a data member is the first. -/
theorem fields_declaratorFilings (hkind : MemberItem.ofKind n.node.kind = .member)
    (h : declaratorFilings code n access = .ok filings) :
    filings.filterMap (·.field?) = declaredFields code access n.node (firstDeclarator n.node) := by
  unfold declaredFields firstDeclarator
  simp only [hkind, true_and]
  rcases declaratorFilings_cases h with ⟨hnone, rfl⟩ |
    ⟨declarator, function, suffix, hdeclarator, hfunction, hcases⟩ |
    ⟨declarator, hdeclarator, hfunction, hcases⟩
  · rw [hnone]
    exact (ite_self _).symm
  · -- What leads to a function declares no data member.
    have hnone : dataMember? code n.node declarator.node = none :=
      if_pos (by rw [hfunction]; rfl)
    rw [hdeclarator, Option.map_some, Option.toList_some, List.filterMap_cons_none hnone,
      List.filterMap_nil, ite_self]
    rcases hcases with ⟨_, hfilings⟩ | ⟨_, isPure, _, rfl⟩
    · exact fields_functionFilings hfilings
    · cases isPure with
      | true => rfl
      | false => rfl
  -- Everything else declares one if it is public and has a type and a name.
  · rw [hdeclarator, Option.map_some, Option.toList_some]
    rcases hcases with ⟨hpublic, hfilings⟩ | ⟨haccess, rfl⟩
    · rw [if_pos hpublic, List.filterMap_cons]
      have hmember : dataMember? code n.node declarator.node = _ :=
        if_neg (by rw [hfunction]; exact Bool.false_ne_true)
      rw [hmember]
      rcases fieldFilings_cases hfilings with ⟨hnone, rfl⟩ |
        ⟨type, name, isStatic, htype, hname, hstatic, rfl⟩
      · rcases hnone with htype | hname
        · rw [htype]
          rfl
        · rw [hname]
          cases n.node.child? "type" with
          | none => rfl
          | some type => rfl
      · rw [htype, hname, isSpecified_eq hstatic]
        rfl
    · rw [if_neg haccess]
      rfl

/-- The data members on the list of a member are those that its first declarator declares. -/
theorem fields_memberFilings (h : memberFilings code n access owner = .ok filings) :
    filings.filterMap (·.field?) = declaredFields code access n.node (firstDeclarator n.node) := by
  rcases memberFilings_cases h with ⟨hkind, first, second, hfirst, hsecond, rfl⟩ | ⟨hkind, hother⟩
  · rw [List.filterMap_append, fields_declaratorFilings hkind hsecond]
    -- What the type of the member files comes first, and there is no data member in it.
    rcases typeFilings_cases hfirst with rfl | ⟨e, rfl⟩ | ⟨_, d, _, _, rfl, _⟩
    all_goals rfl
  · rw [declaredFields, if_neg fun hmember => hkind hmember.1]
    rcases hother with rfl | ⟨e, rfl⟩ | ⟨t, rfl, _⟩ | ⟨d, rfl, _⟩
    all_goals rfl

/-- The typedefs on the list of a member are those that its first declarator declares, or the alias
    that it is. -/
theorem typedefs_memberFilings (h : memberFilings code n access owner = .ok filings) :
    (filings.filterMap (·.typedef?)).map (fun t => (t.name, t.underlying)) =
      declaredTypedefs code "" n.node (firstDeclarator n.node) := by
  -- At most one typedef is read of a member, and it is the whole list.
  have hfound : ∀ found : Option Typedef,
      ((found.map MemberFiling.typedef).toList.filterMap (·.typedef?)).map
        (fun t => (t.name, t.underlying)) =
      (found.map fun t => (t.name, t.underlying)).toList := by
    intro found
    cases found with
    | none => rfl
    | some t => rfl
  by_cases htypedef : MemberItem.ofKind n.node.kind = .typedef
  · simp only [memberFilings, htypedef, bind_eq_ok, pure_eq_ok] at h
    rcases h with ⟨found, hparsed, rfl⟩
    rw [hfound,
      declaredTypedefs_of_typedef? ((memberItem_eq_typedef_iff _).mp htypedef) hparsed]
  · by_cases halias : MemberItem.ofKind n.node.kind = .aliasType
    · simp only [memberFilings, halias, bind_eq_ok, pure_eq_ok] at h
      rcases h with ⟨found, hparsed, rfl⟩
      rw [hfound,
        declaredTypedefs_of_alias? ((memberItem_eq_aliasType_iff _).mp halias) hparsed]
    · rw [declaredTypedefs, if_neg fun hkind => htypedef ((memberItem_eq_typedef_iff _).mpr hkind),
        if_neg fun hkind => halias ((memberItem_eq_aliasType_iff _).mpr hkind),
        List.map_eq_nil_iff]
      -- Members of the other kinds have no typedef on their lists.
      refine List.filterMap_eq_nil_iff.mpr fun f hf => ?_
      cases memberFiles_of_mem h hf with
      | typedef t hkind _ => exact absurd hkind htypedef
      | aliasType t hkind _ => exact absurd hkind halias
      | _ => rfl

end Members

section Items

variable {code : List Char} {n : Located} {namespaces : List String} {filings : List Filing}

/-- The typedefs on the list of an item are those that its first declarator declares, or the alias
    that it is. -/
theorem typedefs_itemFilings (h : itemFilings code n namespaces = .ok filings) :
    (filings.filterMap (·.typedef?)).map (fun t => (t.name, t.underlying)) =
      declaredTypedefs code (scopeName namespaces) n.node (firstDeclarator n.node) := by
  -- A list with nothing but a typedef has the typedefs that were read of it.
  have hfound : ∀ found : Option Typedef,
      ([Filing.typedef found].filterMap (·.typedef?)).map (fun t => (t.name, t.underlying)) =
        (found.map fun t => (t.name, t.underlying)).toList := by
    intro found
    cases found with
    | none => rfl
    | some t => rfl
  by_cases htypedef : ScopeItem.ofKind n.node.kind = .typedef
  · simp only [itemFilings, htypedef, bind_eq_ok, pure_eq_ok] at h
    rcases h with ⟨found, hparsed, rfl⟩
    rw [hfound,
      declaredTypedefs_of_typedef? ((scopeItem_eq_typedef_iff _).mp htypedef) hparsed]
  · by_cases halias : ScopeItem.ofKind n.node.kind = .aliasType
    · simp only [itemFilings, halias, bind_eq_ok, pure_eq_ok] at h
      rcases h with ⟨found, hparsed, rfl⟩
      rw [hfound,
        declaredTypedefs_of_alias? ((scopeItem_eq_aliasType_iff _).mp halias) hparsed]
    · rw [declaredTypedefs, if_neg fun hkind => htypedef ((scopeItem_eq_typedef_iff _).mpr hkind),
        if_neg fun hkind => halias ((scopeItem_eq_aliasType_iff _).mpr hkind),
        List.map_eq_nil_iff]
      -- Items of the other kinds have no typedef on their lists.
      refine List.filterMap_eq_nil_iff.mpr fun f hf => ?_
      cases itemFiles_of_mem h hf with
      | typedef t hkind _ => exact absurd hkind htypedef
      | aliasType t hkind _ => exact absurd hkind halias
      | _ => rfl

end Items

section Recorded

variable {code : List Char}

/-- The data members of a class are those that the first declarators of its members declare, in
    order. -/
theorem parseClass_fields {n : Located} {scope : String} {c : ClassRecord}
    (h : parseClass code n scope = .ok (some c)) :
    c.fields = (bodyMembers code n.node).flatMap fun entry =>
      declaredFields code entry.1 entry.2 (firstDeclarator entry.2) := by
  rcases parseClass_files h with ⟨_, _, _, items, lists, _, hitems, hlists, rfl⟩
  rw [ClassRecord.fields_fileAll, List.nil_append, ← hitems, List.flatMap_map]
  exact filterMap_flatten_of_forall₂ hlists fun item filings => fields_memberFilings

/-- The typedefs of a class are those that the first declarators of its members declare, filed under
    their names in order. -/
theorem parseClass_typedefs {n : Located} {scope : String} {c : ClassRecord}
    (h : parseClass code n scope = .ok (some c)) :
    c.typedefs.map (·.underlying) = Dict.ofList ((bodyMembers code n.node).flatMap fun entry =>
      declaredTypedefs code "" entry.2 (firstDeclarator entry.2)) := by
  rcases parseClass_files h with ⟨_, _, _, items, lists, _, hitems, hlists, rfl⟩
  -- The lists of the members are read one by one, and a later typedef of a name wins.
  have hread := filterMap_flatten_of_forall₂ hlists fun item filings hfilings =>
    List.map_filterMap.symm.trans (typedefs_memberFilings hfilings)
  rw [ClassRecord.typedefs_fileAll, Dict.map_foldl_insert, List.map_filterMap, hread, ← hitems,
    List.flatMap_map]
  rfl

/-- The typedefs of a header are those that the first declarators of its items declare, in order. -/
theorem extractHeader_typedefs {path : Path} {tree : Node} {header : Header}
    (h : extractHeader code path tree = .ok header) :
    header.typedefs.map (fun t => (t.name, t.underlying)) =
      (scopeItems code [] tree.children).flatMap fun entry =>
        declaredTypedefs code (scopeName entry.1) entry.2 (firstDeclarator entry.2) := by
  rcases extractHeader_files h with ⟨items, lists, s, hitems, hlists, hfile, rfl⟩
  have hread := filterMap_flatten_of_forall₂ hlists fun item filings hfilings =>
    List.map_filterMap.symm.trans (typedefs_itemFilings hfilings)
  -- Functions from outside of classes are filed behind everything else.
  have hlater : ∀ entries : List (String × Method),
      (entries.map Filing.outOfLine).filterMap (·.typedef?) = [] := by
    intro entries
    rw [List.filterMap_map]
    exact List.filterMap_eq_nil_iff.mpr fun _ _ => rfl
  change s.header.typedefs.map _ = _
  rw [(Collector.fileAll_adds hfile).1, List.filterMap_append, hlater, List.append_nil,
    ← hitems, List.flatMap_map]
  exact List.map_filterMap.trans hread

end Recorded

/-- What is recorded of declarations with several declarators is what the first of them declare. A
    declaration with a single declarator is recorded as a whole: a public one with its data member,
    and a typedef, in a class or outside of classes, under its name. -/
theorem recorded_by_firstDeclarator (code : List Char) :
    (∀ n scope c, parseClass code n scope = .ok (some c) →
      c.fields = (bodyMembers code n.node).flatMap (fun entry =>
        declaredFields code entry.1 entry.2 (firstDeclarator entry.2)) ∧
      c.typedefs.map (·.underlying) = Dict.ofList ((bodyMembers code n.node).flatMap fun entry =>
        declaredTypedefs code "" entry.2 (firstDeclarator entry.2)) ∧
      ∀ entry ∈ bodyMembers code n.node, laterDeclarators entry.2 = [] →
        (∀ d ∈ declaredFields code entry.1 entry.2 (declarators entry.2), d ∈ c.fields) ∧
        ∀ t ∈ declaredTypedefs code "" entry.2 (declarators entry.2), t.1 ∈ c.typedefs.keys) ∧
    ∀ path tree header, extractHeader code path tree = .ok header →
      header.typedefs.map (fun t => (t.name, t.underlying)) =
        (scopeItems code [] tree.children).flatMap (fun entry =>
          declaredTypedefs code (scopeName entry.1) entry.2 (firstDeclarator entry.2)) ∧
      ∀ entry ∈ scopeItems code [] tree.children, laterDeclarators entry.2 = [] →
        ∀ t ∈ declaredTypedefs code (scopeName entry.1) entry.2 (declarators entry.2),
          t ∈ header.typedefs.map fun t => (t.name, t.underlying) := by
  -- Where no declarator is behind a comma, the first one is all there is.
  have hsingle : ∀ item, laterDeclarators item = [] → declarators item = firstDeclarator item := by
    intro item hitem
    rw [declarators, hitem, List.append_nil]
  refine ⟨fun n scope c h => ⟨parseClass_fields h, parseClass_typedefs h, ?_⟩,
    fun path tree header h => ⟨extractHeader_typedefs h, ?_⟩⟩
  · intro entry hentry hone
    rw [hsingle _ hone]
    refine ⟨fun d hd => ?_, fun t ht => ?_⟩
    · rw [parseClass_fields h]
      exact List.mem_flatMap.mpr ⟨entry, hentry, hd⟩
    · rw [← Dict.keys_map, parseClass_typedefs h, Dict.mem_keys_ofList]
      exact List.mem_map_of_mem (List.mem_flatMap.mpr ⟨entry, hentry, ht⟩)
  · intro entry hentry hone t ht
    rw [hsingle _ hone] at ht
    rw [extractHeader_typedefs h]
    exact List.mem_flatMap.mpr ⟨entry, hentry, ht⟩

section Fields

/-- A declarator that is a plain name introduces this name. -/
theorem declaredIdentifier?_of_isIdentifier {n : Node} (h : isIdentifier n.kind = true) :
    declaredIdentifier? n = some n := by
  rw [declaredIdentifier?, if_pos h]

/-- A plain name declares no function. -/
theorem functionDeclarator?_of_isIdentifier {n : Node} (h : isIdentifier n.kind = true) :
    functionDeclarator? n = none := by
  -- The kinds of declarators that lead to functions are no names.
  have hnot : ∀ kind, isIdentifier kind = false → ¬ (n.kind == kind) = true := by
    intro kind hkind hsame
    rw [beq_iff_eq.mp hsame, hkind] at h
    exact Bool.false_ne_true h
  rw [functionDeclarator?, if_neg (hnot _ (by decide)), if_neg (hnot _ (by decide)),
    if_neg (hnot _ (by decide))]

/-- A member whose declarator is a plain name. -/
theorem declaratorFilings_of_isIdentifier {code : List Char} {n type declarator : Located}
    {name : String} {text : List Char} {isStatic : Bool}
    (hdeclarator : n.node.child? "declarator" = some declarator)
    (hkind : isIdentifier declarator.node.kind = true)
    (htype : n.node.child? "type" = some type) (hname : nameOf code declarator.node = .ok name)
    (htext : textOf code type.node = .ok text)
    (hstatic : hasSpecifier code n.node "static" = .ok isStatic) :
    declaratorFilings code n .isPublic = .ok [.field { name, type := spell text, isStatic }] := by
  unfold declaratorFilings fieldFilings
  simp only [hdeclarator, functionDeclarator?_of_isIdentifier hkind, htype,
    declaredIdentifier?_of_isIdentifier hkind, hname, htext, hstatic]
  rfl

/-- A declaration `int x` with more behind it, as the member of a class. -/
def intField (rest : List Node) (stop : Nat) : Node :=
  { kind := "field_declaration", named := true, start := 18, stop
    fields := [("declarator", 1), ("type", 0)]
    children := leaf "primitive_type" true 18 21 :: leaf "field_identifier" true 22 23 :: rest }

/-- The record of a class with the member `int x`. -/
def intFieldRecord : ClassRecord :=
  { name := "A", fields := [{ name := "x", type := "int" }] }

/-- A class with a declaration of `int x` has this data member, whatever is behind it. -/
theorem parseClass_intField {code : List Char} {rest : List Node} {stop : Nat}
    (hname : nameOf code (leaf "type_identifier" true 6 7) = .ok "A")
    (hmark : textOf code publicMark = .ok "public".toList)
    (hx : nameOf code (leaf "field_identifier" true 22 23) = .ok "x")
    (hint : textOf code (leaf "primitive_type" true 18 21) = .ok "int".toList)
    (hstatic : hasSpecifier code (intField rest stop) "static" = .ok false) :
    parseClass code ⟨publicClass (intField rest stop), []⟩ "" = .ok (some intFieldRecord) := by
  refine parseClass_publicClass hname hmark rfl ?_
  rw [fileMember_eq, memberFilings_of_plain rfl rfl,
    declaratorFilings_of_isIdentifier rfl rfl rfl hx hint hstatic]
  rfl

/-- A class with one data member. -/
def oneFieldSource : List Char := "class A { public: int x; };".toList

/-- The declaration `int x;`. -/
def oneField : Node :=
  intField [leaf ";" false 23 24] 24

/-- A header with one typedef. -/
def typedefSource : List Char := "typedef int t;".toList

/-- The typedef. -/
def intTypedef : Node :=
  { kind := "type_definition", named := true, start := 0, stop := 14
    fields := [("declarator", 2), ("type", 1)]
    children := [leaf "typedef" false 0 7, leaf "primitive_type" true 8 11,
      leaf "type_identifier" true 12 13, leaf ";" false 13 14] }

/-- The tree of the header. -/
def typedefTree : Node :=
  { kind := "translation_unit", named := true, start := 0, stop := 14, fields := []
    children := [intTypedef] }

/-- The record of the header. -/
def typedefHeader : Header :=
  { Header.ofPath "gp_Test.hxx" with typedefs := [{ name := "t", underlying := "int" }] }

theorem extractHeader_typedef :
    extractHeader typedefSource "gp_Test.hxx" typedefTree = .ok typedefHeader := by
  have hname : declaredIdentifier? (leaf "type_identifier" true 12 13) = some _ :=
    declaredIdentifier?_of_isIdentifier rfl
  have htype : intTypedef.child? "type" =
      some ⟨leaf "primitive_type" true 8 11, [leaf "typedef" false 0 7]⟩ := rfl
  have hdeclarator : intTypedef.child? "declarator" = some ⟨leaf "type_identifier" true 12 13,
      [leaf "primitive_type" true 8 11, leaf "typedef" false 0 7]⟩ := rfl
  have hparsed : typedef? typedefSource ⟨intTypedef, []⟩ "" =
      .ok (some { name := "t", underlying := "int" }) := by
    simp only [typedef?, htype, hdeclarator, hname]
    rfl
  -- The typedef is read as the only item, and then there is nothing left to read.
  rw [extractHeader, typedefTree, bind_eq_ok]
  refine ⟨{ header := typedefHeader }, ?_, rfl⟩
  rw [visitScope_cons, bind_eq_ok]
  refine ⟨{ header := typedefHeader }, ?_, ?_⟩
  · change (typedef? typedefSource ⟨intTypedef, []⟩ "" >>= fun t =>
      pure (Collector.addTypedef t { header := Header.ofPath "gp_Test.hxx" })) = _
    rw [hparsed]
    rfl
  · rw [Collector.visitScope]
    rfl

theorem parseClass_oneField :
    parseClass oneFieldSource ⟨publicClass oneField, []⟩ "" = .ok (some intFieldRecord) :=
  parseClass_intField rfl rfl rfl rfl rfl

theorem recorded_by_firstDeclarator_oneField :
    parseClass oneFieldSource ⟨publicClass oneField, []⟩ "" = .ok (some intFieldRecord) ∧
      extractHeader typedefSource "gp_Test.hxx" typedefTree = .ok typedefHeader ∧
      (∀ d ∈ declaredFields oneFieldSource .isPublic oneField (declarators oneField),
        d ∈ intFieldRecord.fields) ∧
      ∀ t ∈ declaredTypedefs typedefSource "" intTypedef (declarators intTypedef),
        t ∈ typedefHeader.typedefs.map fun t => (t.name, t.underlying) := by
  -- The typedef is the only item of its header.
  have hitem : ([], intTypedef) ∈ scopeItems typedefSource [] typedefTree.children := by
    rw [typedefTree, scopeItems_cons_of_item (by decide) (by decide), scopeItems]
    exact List.mem_singleton_self _
  have hmember := ((@mem_bodyMembers_publicClass oneFieldSource oneField rfl rfl
    (.isPublic, oneField)).mpr rfl).1
  exact ⟨parseClass_oneField, extractHeader_typedef,
    (((recorded_by_firstDeclarator oneFieldSource).1 _ _ _ parseClass_oneField).2.2 _ hmember
      rfl).1,
    ((recorded_by_firstDeclarator typedefSource).2 _ _ _ extractHeader_typedef).2 _ hitem rfl⟩

/-- A class with two data members in one declaration. -/
def twoFieldsSource : List Char := "class A { public: int x, y; };".toList

/-- The declaration `int x, y;`. -/
def twoFields : Node :=
  intField [leaf "," false 23 24, leaf "field_identifier" true 25 26, leaf ";" false 26 27] 27

theorem parseClass_twoFields :
    parseClass twoFieldsSource ⟨publicClass twoFields, []⟩ "" = .ok (some intFieldRecord) :=
  parseClass_intField rfl rfl rfl rfl rfl

/-- It is not so that every declarator of a public member is recorded: of two data members in one
    declaration the second is missing. -/
theorem parseClass_laterDeclarator_lost :
    ¬ ∀ (code : List Char) (n : Located) (scope : String) (c : ClassRecord),
      parseClass code n scope = .ok (some c) → ∀ entry ∈ bodyMembers code n.node,
        ∀ d ∈ declaredFields code entry.1 entry.2 (declarators entry.2), d ∈ c.fields := by
  intro h
  have hmember := ((@mem_bodyMembers_publicClass twoFieldsSource twoFields rfl rfl
    (.isPublic, twoFields)).mpr rfl).1
  -- The second declarator declares a data member like the first.
  have hsecond : dataMember? twoFieldsSource twoFields (leaf "field_identifier" true 25 26) =
      some { name := "y", type := "int" } := by
    have hname : declaredIdentifier? (leaf "field_identifier" true 25 26) = some _ :=
      declaredIdentifier?_of_isIdentifier rfl
    have hnone : functionDeclarator? (leaf "field_identifier" true 25 26) = none :=
      functionDeclarator?_of_isIdentifier rfl
    simp only [dataMember?, hnone, hname]
    rfl
  -- If all were recorded, this one would be.
  have hlost : ({ name := "y", type := "int" } : DataMember) ∈ intFieldRecord.fields := by
    refine h _ _ _ _ parseClass_twoFields _ hmember _ ?_
    rw [declaredFields, if_pos ⟨rfl, rfl⟩]
    refine List.mem_filterMap.mpr ⟨leaf "field_identifier" true 25 26, ?_, hsecond⟩
    exact List.mem_cons_of_mem _ (List.mem_singleton_self _)
  exact absurd hlost (by decide)

end Fields

end Extraction

end HeaderBinding
