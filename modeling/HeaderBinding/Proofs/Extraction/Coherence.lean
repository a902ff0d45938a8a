import HeaderBinding.Proofs.Extraction.Faults
import HeaderBinding.Proofs.Extraction.Filing
import HeaderBinding.Proofs.Extraction.HeaderScope

/-!
# Coherent Headers

What holds of every header that is read, whatever its tree.

Reading a header is reading parts of the tree and filing what they give, in turn (`ReadsAndFiles`).
Reading does not look at what is filed, and filing misses no slot, so nothing goes wrong but for
parts of the source that do not exist. And since slots are right whatever is filed, they are so at
any moment of the walk and behind it, when the functions set aside are filed.

A name that is declared and not defined is listed apart. At the end the classes that are filed are
taken off this list, wherever the header defines them. What is filed are the classes that do not
nest in others, and so a class in a class may stay on the list.

## Main definitions

* `ReadsAndFiles`: A computation that reads and files.
* `nestedTree`: A class in a class, and a variable of that class.

## Theorems

* `Readable.visitScope`: The walk through a header reads and files.
* `visitScope_defines`: Every class that does not nest in another is filed.
* `extractHeader_coherent`: What holds of every header that is read.
* `extractHeader_forwards_defined`: A class in a class may stay on the list.
-/

namespace HeaderBinding

namespace Extraction

open Syntax

variable {code : List Char} {allowed : Fault → Prop} {fits : Node → Prop} {path : Path}
  {s : Collector}

/-- A computation that reads and files: it goes wrong only while it reads, and what it leads to,
    filing leads to. -/
structure ReadsAndFiles (allowed : Fault → Prop) (s : Collector) (x : Extract Collector) :
    Prop where
  faults : FaultsOnly allowed x
  filings : ∀ result, x = .ok result → ∃ filings, s.fileAll filings = .ok result

namespace ReadsAndFiles

variable {x : Extract Collector}

theorem pure (s : Collector) : ReadsAndFiles allowed s (Pure.pure s) where
  faults := .pure s
  filings _ h := ⟨[], h⟩

theorem file (hs : s.Coherent path) (f : Filing) : ReadsAndFiles allowed s (s.file f) := by
  rcases Collector.file_coherent hs f with ⟨s₁, hfile, _⟩
  refine ⟨fun fault h => ?_, fun s' h => ⟨[f], ?_⟩⟩
  · rw [hfile] at h
    exact absurd h (by simp only [reduceCtorEq, not_false_eq_true])
  · rw [Collector.fileAll, List.foldlM_cons, h]
    rfl

/-- Reading something first adds its faults and files nothing. -/
theorem read {α : Type} {y : Extract α} {f : α → Extract Collector} (hy : FaultsOnly allowed y)
    (hf : ∀ a, y = .ok a → ReadsAndFiles allowed s (f a)) : ReadsAndFiles allowed s (y >>= f) where
  faults := hy.bind fun a h => (hf a h).faults
  filings s' h := by
    rcases bind_eq_ok.mp h with ⟨a, ha, h⟩
    exact (hf a ha).filings s' h

/-- What is coherent stays so, and no class that is filed is lost. -/
theorem coherent {s' : Collector} (hs : s.Coherent path) (hx : ReadsAndFiles allowed s x)
    (h : x = .ok s') : s'.Coherent path ∧ s.classNames ⊆ s'.classNames := by
  rcases hx.filings s' h with ⟨filings, hfile⟩
  rcases Collector.fileAll_coherent hs filings with ⟨s₁, hsame, hs₁⟩
  exact Except.ok.inj (hsame.symm.trans hfile) ▸ hs₁

/-- The second computation files behind the first. -/
theorem bind {f : Collector → Extract Collector} (hs : s.Coherent path)
    (hx : ReadsAndFiles allowed s x)
    (hf : ∀ s₁, s₁.Coherent path → ReadsAndFiles allowed s₁ (f s₁)) :
    ReadsAndFiles allowed s (x >>= f) := by
  refine ⟨hx.faults.bind fun s₁ h => (hf s₁ (hx.coherent hs h).1).faults, fun s' h => ?_⟩
  rcases bind_eq_ok.mp h with ⟨s₁, h₁, h⟩
  rcases hx.filings s₁ h₁ with ⟨first, hfirst⟩
  rcases (hf s₁ (hx.coherent hs h₁).1).filings s' h with ⟨rest, hrest⟩
  refine ⟨first ++ rest, ?_⟩
  rw [Collector.fileAll, List.foldlM_append, bind_eq_ok]
  exact ⟨s₁, hfirst, hrest⟩

theorem foldlM {α : Type} {f : Collector → α → Extract Collector} {items : List α}
    (hs : s.Coherent path)
    (hf : ∀ a ∈ items, ∀ s₁, s₁.Coherent path → ReadsAndFiles allowed s₁ (f s₁ a)) :
    ReadsAndFiles allowed s (items.foldlM f s) := by
  induction items generalizing s with
  | nil => exact pure s
  | cons a items ih =>
      rw [List.forall_mem_cons] at hf
      rw [List.foldlM_cons]
      exact bind hs (hf.1 s hs) fun s₁ hs₁ => ih hs₁ hf.2

end ReadsAndFiles

namespace Readable

variable (hr : Readable code allowed fits)

include hr

theorem addInclude {n : Node} (hs : s.Coherent path) (hn : fits n) :
    ReadsAndFiles allowed s (s.addInclude code n) := by
  unfold Collector.addInclude
  split
  · exact .pure s
  · next found hfound =>
    exact .read (hr.whole _ (hr.child? hn hfound).node) fun _ _ => .file hs (.dependency _)

theorem addClass {l : Located} (hs : s.Coherent path) (hl : LocatedFits fits l)
    (namespaces : List String) : ReadsAndFiles allowed s (s.addClass code l namespaces) := by
  unfold Collector.addClass
  refine .read (hr.parseClass hl _) fun found _ => ?_
  cases found with
  | some c => exact .file hs (.record c)
  | none =>
      dsimp only
      split
      · exact .pure s
      · split
        · exact .pure s
        · next name hname =>
          exact .read (hr.nameOf (hr.child? hl.node hname).node) fun _ _ => .file hs (.forward _)

theorem addEnum {l : Located} (hs : s.Coherent path) (hl : LocatedFits fits l)
    (namespaces : List String) : ReadsAndFiles allowed s (s.addEnum code l namespaces) := by
  unfold Collector.addEnum
  refine .read (hr.enumeration? hl _) fun found _ => ?_
  cases found with
  | none => exact .pure s
  | some e => exact .file hs (.enumeration e)

theorem addTemplate {n : Node} (hs : s.Coherent path) (hn : fits n) (namespaces : List String) :
    ReadsAndFiles allowed s (s.addTemplate code n namespaces) := by
  have hclasses : ∀ l ∈ n.located.filterMap Collector.templatedClass?, LocatedFits fits l := by
    intro l hl
    rcases List.mem_filterMap.mp hl with ⟨child, hchild, hl⟩
    have hchild := hr.located hn hchild
    unfold Collector.templatedClass? at hl
    split at hl
    · exact Option.some.inj hl ▸ hchild
    · split at hl
      · exact hr.child? hchild.node (Option.filter_eq_some_iff.mp hl).1
      · exact absurd hl (by simp only [reduceCtorEq, not_false_eq_true])
  -- With a list of parameters and without, the classes are filed one after the other.
  unfold Collector.addTemplate
  dsimp only
  split
  all_goals
    refine .read ?_ fun params _ => .foldlM hs fun l hl s₁ hs₁ =>
      .read (hr.parseClass (hclasses l hl) _) fun found _ => ?_
    rotate_left
    · cases found with
      | some c => exact .file hs₁ (.template c params)
      | none => exact .pure s₁
  · next list hlist => exact hr.templateParams (hr.child? hn hlist).node
  · exact .pure []

theorem addFunction {l : Located} (hs : s.Coherent path) (hl : LocatedFits fits l)
    (namespaces : List String) : ReadsAndFiles allowed s (s.addFunction code l namespaces) := by
  unfold Collector.addFunction
  split
  · exact .pure s
  · next function suffix hfunction =>
    rcases Option.bind_eq_some_iff.mp hfunction with ⟨d, hd, hfunction⟩
    -- Whatever is read of the function lies inside the node, which fits.
    have hinside := (within_of_child? hd).trans (within_of_functionDeclarator? hfunction)
    split
    · exact .pure s
    · next name hname =>
      have hspelling := hr.whole _ (hr.child? (hr.within hl.node hinside) hname).node
      split
      · exact .pure s
      · dsimp only
        split
        · refine .read hspelling fun text _ => ?_
          split
          · exact .pure s
          · exact .read (hr.callable hl hinside suffix _) fun m _ => .file hs (.setAside (_, m))
        · split
          · refine .read hspelling fun text _ => .read (hr.callable hl hinside suffix _) fun m _ => ?_
            split
            · exact .read (.pure true) fun _ _ => .file hs (.function _)
            · exact .read (hr.hasSpecifier hl.node _) fun _ _ => .file hs (.function _)
          · exact .pure s

theorem addDeclaration {l : Located} (hs : s.Coherent path) (hl : LocatedFits fits l)
    (namespaces : List String) :
    ReadsAndFiles allowed s (s.addDeclaration code l namespaces) := by
  have hfunction : ∀ s₁ : Collector, s₁.Coherent path →
      ReadsAndFiles allowed s₁ (s₁.addFunction code l namespaces) :=
    fun s₁ hs₁ => hr.addFunction hs₁ hl namespaces
  unfold Collector.addDeclaration
  dsimp only
  split
  · next type htype =>
    have htype := hr.child? hl.node htype
    split
    · exact .bind hs (hr.addClass hs htype namespaces) hfunction
    · split
      · exact .bind hs (hr.addEnum hs htype namespaces) hfunction
      · exact .bind hs (.pure s) hfunction
  · exact .bind hs (.pure s) hfunction

theorem fileItem {l : Located} (hs : s.Coherent path) (hl : LocatedFits fits l)
    (namespaces : List String) : ReadsAndFiles allowed s (fileItem code l namespaces s) := by
  unfold Extraction.fileItem
  split
  · exact hr.addInclude hs hl.node
  · exact hr.addClass hs hl namespaces
  · exact hr.addEnum hs hl namespaces
  · exact hr.addTemplate hs hl.node namespaces
  · exact hr.addDeclaration hs hl namespaces
  · exact hr.addFunction hs hl namespaces
  · exact .read (hr.typedef? hl _) fun t _ => .file hs (.typedef t)
  · exact .read (hr.alias? hl _) fun t _ => .file hs (.typedef t)
  · exact .pure s

theorem visitScope {before nodes : List Node} (hs : s.Coherent path)
    (hbefore : ∀ n ∈ before, fits n) (hnodes : ∀ n ∈ nodes, fits n) (namespaces : List String) :
    ReadsAndFiles allowed s (Collector.visitScope code namespaces before nodes s) := by
  -- Induction on the size of the nodes: a block and a namespace are smaller than the nodes they
  -- stand among.
  induction hsize : sizeOf nodes using Nat.strongRecOn
    generalizing before nodes s namespaces with
  | ind size ih =>
      subst hsize
      cases nodes with
      | nil =>
          rw [Collector.visitScope]
          exact .pure s
      | cons child nodes =>
          rw [List.forall_mem_cons] at hnodes
          rw [List.cons.sizeOf_spec] at ih
          have hnone : ∀ n ∈ ([] : List Node), fits n := fun _ h => absurd h List.not_mem_nil
          have hchildren := child.sizeOf_children_lt
          rw [visitScope_cons]
          refine .bind hs ?_ fun s₁ hs₁ => ih _ (by omega) hs₁
            (List.forall_mem_cons.mpr ⟨hnodes.1, hbefore⟩) hnodes.2 namespaces rfl
          unfold visitItem
          split
          · exact ih _ (by omega) hs hnone (hr.child child hnodes.1) namespaces rfl
          · split
            · next name body hname hbody =>
              have hbody' := hr.child? hnodes.1 hbody
              have hlt := Node.sizeOf_lt_of_child? hbody
              have hinside := body.node.sizeOf_children_lt
              exact .read (hr.whole _ (hr.child? hnodes.1 hname).node) fun text _ =>
                ih _ (by omega) hs hnone (hr.child _ hbody'.node) _ rfl
            · exact .pure s
          · exact hr.fileItem hs ⟨hnodes.1, hbefore⟩ namespaces

end Readable

section Defining

variable {tree : Node} {namespaces : List String} {s' : Collector} {name : String}

/-- A class that an item defines is filed. -/
theorem addClass_defines {l : Located} (hs : s.Coherent path)
    (hdefines : ∀ name, definedName? code (scopeName namespaces) l.node = some name →
      DefinesClass code tree name l.node)
    (hname : definedName? code (scopeName namespaces) l.node = some name)
    (h : s.addClass code l namespaces = .ok s') : name ∈ s'.classNames := by
  unfold Collector.addClass at h
  rw [bind_eq_ok] at h
  rcases h with ⟨found, hfound, h⟩
  cases found with
  | none =>
      rw [definedName?_of_parseClass_none hfound] at hname
      exact absurd hname (by simp only [reduceCtorEq, not_false_eq_true])
  | some c =>
      -- A record is filed under its own name, which is the name that the node defines.
      rcases Collector.insertClass_coherent hs c with ⟨s₁, hinsert, _, _, hmem⟩
      obtain rfl := Except.ok.inj (hinsert.symm.trans h)
      have hsame := (@parseClass_grown code tree (fun _ _ => False) c l _ hfound hdefines).1
      exact Option.some.inj (hsame.symm.trans hname) ▸ hmem

/-- An item that is no template files every class that it defines. -/
theorem fileItem_defines {l : Located} (hs : s.Coherent path)
    (hitem : (namespaces, l.node) ∈ scopeItems code [] tree.children)
    (htemplate : ScopeItem.ofKind l.node.kind ≠ .template) {n : Node}
    (hn : n ∈ itemClasses l.node) (hname : definedName? code (scopeName namespaces) n = some name)
    (h : fileItem code l namespaces s = .ok s') : name ∈ s'.classNames := by
  have hdefines : ∀ name, definedName? code (scopeName namespaces) n = some name →
      DefinesClass code tree name n :=
    fun name => DefinesClass.outer namespaces l.node n name hitem hn
  unfold itemClasses at hn
  unfold fileItem at h
  cases hkind : ScopeItem.ofKind l.node.kind with
  | template => exact absurd hkind htemplate
  | classType =>
      simp only [hkind, List.mem_singleton] at h hn
      subst hn
      exact addClass_defines hs hdefines hname h
  | declaration =>
      simp only [hkind, Option.mem_toList, Option.filter_eq_some_iff, Option.map_eq_some_iff] at h hn
      rcases hn with ⟨⟨type, htype, rfl⟩, hclass⟩
      simp only [Collector.addDeclaration, htype, hclass, if_true, bind_eq_ok] at h
      rcases h with ⟨s₁, hfirst, h⟩
      have hr := readable_badSlice code
      have hfits : ∀ l, LocatedFits (fun _ => True) l := fun _ => ⟨trivial, fun _ _ => trivial⟩
      -- The function that is declared besides takes no class away.
      have hs₁ := ((hr.addClass hs (hfits type) namespaces).coherent hs hfirst).1
      exact ((hr.addFunction hs₁ (hfits l) namespaces).coherent hs₁ h).2
        (addClass_defines hs hdefines hname hfirst)
  | _ =>
      rw [hkind] at hn
      exact absurd hn List.not_mem_nil

/-- Every class that a header defines outside of other classes is filed. -/
theorem visitScope_defines {before : List Node} (hs : s.Coherent path)
    (h : Collector.visitScope code [] before tree.children s = .ok s') :
    ∀ item ∈ scopeItems code [] tree.children, ScopeItem.ofKind item.2.kind ≠ .template →
      ∀ n ∈ itemClasses item.2, ∀ name, definedName? code (scopeName item.1) n = some name →
        name ∈ s'.classNames := by
  rcases visitScope_items h with ⟨items, hitems, hfold⟩
  have hr := readable_badSlice code
  -- Filing an item keeps the classes that are filed already and adds its own.
  have hrun := foldlM_forall (Collector.Coherent path) (fun item s' =>
      ScopeItem.ofKind item.2.node.kind ≠ .template → ∀ n ∈ itemClasses item.2.node, ∀ name,
        definedName? code (scopeName item.1) n = some name → name ∈ s'.classNames) hs
    (fun item hitem s₁ s₂ hs₁ hfile => ?_) hfold
  · rw [← hitems]
    exact List.forall_mem_map.mpr hrun.2.1
  · have hmem : (item.1, item.2.node) ∈ scopeItems code [] tree.children :=
      hitems ▸ List.mem_map_of_mem hitem
    have hstep := (hr.fileItem hs₁ ⟨trivial, fun _ _ => trivial⟩ item.1).coherent hs₁ hfile
    exact ⟨hstep.1, fun htemplate n hn name hname =>
      fileItem_defines hs₁ hmem htemplate hn hname hfile,
      fun other hother htemplate n hn name hname => hstep.2 (hother htemplate n hn name hname)⟩

end Defining

/-- Whatever is filed one after the other, every slot is right behind it and none is missed. Nothing
    goes wrong in reading a header but for parts of the source that do not exist. A header that is
    read is what filing leads to, nothing is in it twice, and no class that it defines outside of
    other classes is among the names that are only declared. -/
theorem extractHeader_coherent (code : List Char) (path : Path) (tree : Node) :
    (∀ filings : List Filing, ∃ s : Collector,
      Collector.fileAll { header := Header.ofPath path } filings = .ok s ∧
      IndexesSlots s.classSlots (s.header.classes.map (·.name)) ∧
      IndexesSlots s.templateSlots (s.header.classTemplates.map (·.name))) ∧
    (∀ fault, extractHeader code path tree = .error fault →
      ∃ start stop, fault = .badSlice start stop) ∧
    ∀ header, extractHeader code path tree = .ok header →
      (∃ filings s, Collector.fileAll { header := Header.ofPath path } filings = .ok s ∧
        header = s.result) ∧
      header.path = path ∧ header.Coherent ∧
      ∀ name ∈ header.forwards, name ∉ header.classes.map (·.name) ∧
        ∀ item ∈ scopeItems code [] tree.children, ScopeItem.ofKind item.2.kind ≠ .template →
          ∀ n ∈ itemClasses item.2, definedName? code (scopeName item.1) n ≠ some name := by
  have hr := readable_badSlice code
  have hstart := Collector.coherent_start path
  have hwalk : ReadsAndFiles _ _ (Collector.visitScope code [] [] tree.children _) :=
    hr.visitScope hstart (fun _ _ => trivial) (fun _ _ => trivial) []
  -- Three parts: filing never misses a slot, reading only misses the source, and what both lead to.
  refine ⟨fun filings => ?_, ?_, fun header h => ?_⟩
  · rcases Collector.fileAll_coherent hstart filings with ⟨s, hfile, hs, _⟩
    exact ⟨s, hfile, hs.classes.index, hs.templates.index⟩
  · refine hwalk.faults.bind fun s h => ?_
    rcases Collector.fileAll_coherent (hwalk.coherent hstart h).1 (s.outOfLine.map .outOfLine) with
      ⟨s', hfile, _⟩
    -- The functions set aside are filed behind the walk, which cannot fail either.
    rw [Collector.finish_eq, hfile]
    exact .pure _
  · rw [extractHeader, bind_eq_ok] at h
    rcases h with ⟨walked, hwalked, h⟩
    simp only [Collector.finish_eq, bind_eq_ok, pure_eq_ok] at h
    rcases h with ⟨filed, hfiled, rfl⟩
    rcases Collector.fileAll_coherent (hwalk.coherent hstart hwalked).1
      (walked.outOfLine.map .outOfLine) with ⟨s', hfile, hs, hsubset⟩
    -- Filing gives one result, so the coherent one is the one that was read.
    obtain rfl := Except.ok.inj (hfile.symm.trans hfiled)
    rcases hwalk.filings walked hwalked with ⟨filings, hfilings⟩
    rcases hs.result with ⟨hpath, hcoherent, hforwards⟩
    refine ⟨⟨filings ++ walked.outOfLine.map .outOfLine, s', ?_, rfl⟩, hpath, hcoherent, ?_⟩
    · rw [Collector.fileAll, List.foldlM_append, bind_eq_ok]
      exact ⟨walked, hfilings, hfile⟩
    · refine fun name hname => ⟨hforwards name hname, ?_⟩
      intro item hitem htemplate n hn hdefined
      exact hforwards name hname
        (hsubset (visitScope_defines hstart hwalked item hitem htemplate n hn name hdefined))

section Nested

/-- A class in a class, and a variable of that class. -/
def nestedSource : List Char := "struct A { struct B {}; }; struct A::B b;".toList

/-- The class in the class. -/
def nestedClass : Node :=
  { kind := "struct_specifier", named := true, start := 11, stop := 22
    fields := [("body", 2), ("name", 1)]
    children := [leaf "struct" false 11 17, leaf "type_identifier" true 18 19,
      { kind := "field_declaration_list", named := true, start := 20, stop := 22, fields := []
        children := [leaf "\x7b" false 20 21, leaf "\x7d" false 21 22] }] }

/-- The member that declares it. -/
def nestedMember : Node :=
  { kind := "field_declaration", named := true, start := 11, stop := 23, fields := [("type", 0)]
    children := [nestedClass, leaf ";" false 22 23] }

/-- The class around it. -/
def outerClass : Node :=
  { kind := "struct_specifier", named := true, start := 0, stop := 25
    fields := [("body", 2), ("name", 1)]
    children := [leaf "struct" false 0 6, leaf "type_identifier" true 7 8,
      { kind := "field_declaration_list", named := true, start := 9, stop := 25, fields := []
        children := [leaf "\x7b" false 9 10, nestedMember, leaf "\x7d" false 24 25] }] }

/-- The type of the variable, `struct A::B`. -/
def elaboratedType : Node :=
  { kind := "struct_specifier", named := true, start := 27, stop := 38, fields := [("name", 1)]
    children := [leaf "struct" false 27 33,
      { kind := "qualified_identifier", named := true, start := 34, stop := 38
        fields := [("name", 2)]
        children := [leaf "namespace_identifier" true 34 35, leaf "::" false 35 37,
          leaf "type_identifier" true 37 38] }] }

/-- The variable. -/
def nestedVariable : Node :=
  { kind := "declaration", named := true, start := 27, stop := 41
    fields := [("declarator", 1), ("type", 0)]
    children := [elaboratedType, leaf "identifier" true 39 40, leaf ";" false 40 41] }

/-- The tree of the header. -/
def nestedTree : Node :=
  { kind := "translation_unit", named := true, start := 0, stop := 41, fields := []
    children := [outerClass, leaf ";" false 25 26, nestedVariable] }

/-- The record of the class. -/
def outerRecord : ClassRecord :=
  addInnerClass { name := "A" } { name := "A::B" }

/-- The record of the header. -/
def nestedHeader : Header :=
  { Header.ofPath "gp_Test.hxx" with
    classes := [{ outerRecord with path := some "gp_Test.hxx" }]
    forwards := ["A::B"] }

theorem parseClass_nested :
    parseClass nestedSource ⟨nestedClass, []⟩ "A" = .ok (some { name := "A::B" }) := by
  have hwalk : visitMembers nestedSource [] [leaf "\x7b" false 20 21, leaf "\x7d" false 21 22]
      ({ name := "A::B" }, .isPublic) = .ok ({ name := "A::B" }, .isPublic) := by
    rw [visitMembers_cons, bind_eq_ok]
    refine ⟨_, rfl, ?_⟩
    rw [visitMembers_cons, bind_eq_ok]
    refine ⟨_, rfl, ?_⟩
    rw [visitMembers]
    rfl
  exact parseClass_eq_ok rfl (by decide) rfl rfl rfl rfl hwalk

theorem parseClass_outer :
    parseClass nestedSource ⟨outerClass, []⟩ "" = .ok (some outerRecord) := by
  have hinner : innerClass nestedSource ⟨nestedClass, []⟩ { name := "A" } = .ok outerRecord := by
    rw [innerClass, parseClass_nested]
    rfl
  have hchild : nestedMember.child? "type" = some ⟨nestedClass, []⟩ := rfl
  have htype : memberType nestedSource ⟨nestedMember, [leaf "\x7b" false 9 10]⟩ .isPublic
      { name := "A" } = .ok outerRecord :=
    (memberType_of_class hchild rfl).trans hinner
  have hfile : fileMember nestedSource ⟨nestedMember, [leaf "\x7b" false 9 10]⟩ .isPublic
      { name := "A" } = .ok outerRecord := by
    change (do
      declaredMember nestedSource ⟨nestedMember, [leaf "\x7b" false 9 10]⟩ .isPublic
        (← memberType nestedSource ⟨nestedMember, [leaf "\x7b" false 9 10]⟩ .isPublic
          { name := "A" })) = _
    rw [htype]
    rfl
  have hmember : visitMember nestedSource [leaf "\x7b" false 9 10] nestedMember
      ({ name := "A" }, .isPublic) = .ok (outerRecord, .isPublic) := by
    change (do
      return (← fileMember nestedSource ⟨nestedMember, [leaf "\x7b" false 9 10]⟩ .isPublic
        { name := "A" }, Access.isPublic)) = _
    rw [hfile]
    rfl
  have hwalk : visitMembers nestedSource []
      [leaf "\x7b" false 9 10, nestedMember, leaf "\x7d" false 24 25]
      ({ name := "A" }, .isPublic) = .ok (outerRecord, .isPublic) := by
    rw [visitMembers_cons, bind_eq_ok]
    refine ⟨_, rfl, ?_⟩
    rw [visitMembers_cons, bind_eq_ok]
    refine ⟨_, hmember, ?_⟩
    rw [visitMembers_cons, bind_eq_ok]
    refine ⟨_, rfl, ?_⟩
    rw [visitMembers]
    rfl
  exact parseClass_eq_ok rfl (by decide) rfl rfl rfl rfl hwalk

theorem addClass_outer :
    Collector.addClass nestedSource ⟨outerClass, []⟩ []
      { header := Header.ofPath "gp_Test.hxx" } = .ok {
        header := { nestedHeader with forwards := [] }
        classSlots := (∅ : Std.HashMap String Nat).insert "A" 0 } := by
  rw [Collector.addClass, bind_eq_ok]
  refine ⟨_, parseClass_outer, ?_⟩
  simp only [Collector.insertClass, Std.HashMap.getElem?_empty]
  rfl

/-- The type of the variable is taken for a class that is only declared. -/
theorem addDeclaration_nested (s : Collector) (hs : s.header.forwards = []) (before : List Node) :
    s.addDeclaration nestedSource ⟨nestedVariable, before⟩ [] =
      .ok { s with header.forwards := ["A::B"] } := by
  have hclass : parseClass nestedSource ⟨elaboratedType, []⟩ "" = .ok none := by
    rw [parseClass]
    rfl
  have hforward : s.addClass nestedSource ⟨elaboratedType, []⟩ [] =
      .ok (s.addForward "A::B") := by
    rw [Collector.addClass, bind_eq_ok]
    exact ⟨none, hclass, rfl⟩
  have hfunction : ((nestedVariable.child? "declarator").bind fun d =>
      functionDeclarator? d.node) = none := by
    change functionDeclarator? (leaf "identifier" true 39 40) = none
    rw [functionDeclarator?]
    rfl
  have htype : nestedVariable.child? "type" = some ⟨elaboratedType, []⟩ := rfl
  have hkind : isClassKind elaboratedType.kind = true := rfl
  simp only [Collector.addDeclaration, htype, hkind, if_true, hforward, Collector.addFunction,
    hfunction]
  change Except.ok (s.addForward "A::B") = _
  rw [Collector.addForward, hs]
  rfl

/-- The class in the class is among the names that are only declared. -/
theorem extractHeader_nested :
    extractHeader nestedSource "gp_Test.hxx" nestedTree = .ok nestedHeader := by
  rw [extractHeader, nestedTree, bind_eq_ok]
  refine ⟨{
    header := nestedHeader
    classSlots := (∅ : Std.HashMap String Nat).insert "A" 0 }, ?_, ?_⟩
  · rw [visitScope_cons, bind_eq_ok]
    refine ⟨_, addClass_outer, ?_⟩
    rw [visitScope_cons, bind_eq_ok]
    refine ⟨_, rfl, ?_⟩
    rw [visitScope_cons, bind_eq_ok]
    refine ⟨_, addDeclaration_nested _ rfl _, ?_⟩
    rw [Collector.visitScope]
    rfl
  · have hforwards : ["A::B"].filter
        (!((∅ : Std.HashMap String Nat).insert "A" 0).contains ·) = ["A::B"] := by
      simp only [Std.HashMap.contains_insert, Std.HashMap.contains_empty]
      rfl
    exact congrArg (fun forwards => Except.ok { nestedHeader with forwards }) hforwards

/-- The header defines a class whose name is among the names that are only declared. -/
theorem definesClass_nested : DefinesClass nestedSource nestedTree "A::B" nestedClass := by
  have hitems : (([], outerClass) : List String × Node) ∈
      scopeItems nestedSource [] nestedTree.children := by
    rw [nestedTree, scopeItems_cons_of_item (by decide) (by decide)]
    exact List.mem_cons_self
  have hmembers : (Access.isPublic, nestedMember) ∈ bodyMembers nestedSource outerClass := by
    change _ ∈ sections nestedSource .isPublic
      [leaf "\x7b" false 9 10, nestedMember, leaf "\x7d" false 24 25]
    rw [sections_cons_of_member (by decide) (by decide),
      sections_cons_of_member (by decide) (by decide)]
    exact List.mem_cons_of_mem _ List.mem_cons_self
  exact .nested "A" outerClass nestedMember nestedClass .isPublic "A::B"
    (.outer [] outerClass outerClass "A" hitems (List.mem_singleton_self _) rfl) hmembers rfl rfl

theorem extractHeader_coherent_nested :
    extractHeader nestedSource "gp_Test.hxx" nestedTree = .ok nestedHeader ∧
      nestedHeader.Coherent :=
  ⟨extractHeader_nested,
    ((extractHeader_coherent nestedSource "gp_Test.hxx" nestedTree).2.2 nestedHeader
      extractHeader_nested).2.2.1⟩

/-- It is not so that a name which the header defines as a class is never among those that are only
    declared: classes in classes are not looked for. -/
theorem extractHeader_forwards_defined :
    ¬ ∀ (code : List Char) (path : Path) (tree : Node) (header : Header),
      extractHeader code path tree = .ok header →
      ∀ name ∈ header.forwards, ∀ n, ¬ DefinesClass code tree name n := by
  intro h
  exact h _ _ _ _ extractHeader_nested "A::B" (List.mem_singleton_self _) nestedClass
    definesClass_nested

end Nested

end Extraction

end HeaderBinding
