import HeaderBinding.Proofs.Extraction.Items
import HeaderBinding.Proofs.Extraction.Members

/-!
# Sources

Where each part of a class record comes from.

A class may be declared in several places, nested classes are folded into each other, and functions
are filed from outside of their class when everything else has been read. But nothing is made up on
the way. Every part of the record of a class is on the list of a member in a body of the class, in
the form in which it is recorded, and only methods have a second source, the definitions outside of
the class (`ClassRecord.MadeOf`). So what holds of everything on the lists of members holds of every
record of every header.

The second source is there for classes that do not nest in others. Nothing is filed from outside in
a nested class or in a class template (`extractHeader_madeOf`).

## Main definitions

* `ClassRecord.MadeOf`: The parts of a record are filed, methods from inside or outside.
* `FiledBy`, `FiledOutsideBy`: A declaration in a class or outside of it that files a part of it.
* `FunctionFiledBy`: A declaration of a function that belongs to no class.
* `Filed`, `FiledOutside`: What the members of a class file, and what definitions outside file.
* `Collector.Sourced`: The records collected so far have their parts from these sources.

## Theorems

* `ClassRecord.MadeOf.file`, `ClassRecord.MadeOf.extend`: Filing and folding add no other parts.
* `parseClass_madeOf`: The parts of a class that is read come from the members of its bodies.
* `extractHeader_madeOf`: The parts of the classes of a header.
-/

namespace HeaderBinding

namespace ClassRecord

/-- The parts of a record are filed for a class of its name. Methods may also be filed from
    outside. -/
structure MadeOf (filed : String → MemberFiling → Prop)
    (outside : String → Method → Prop) (c : ClassRecord) : Prop where
  isAbstract : c.isAbstract = true → filed c.name .abstractMark
  methods : ∀ entry ∈ c.methods.entries, filed c.name (.method entry.2) ∨ outside c.name entry.2
  staticMethods : ∀ entry ∈ c.staticMethods.entries,
    filed c.name (.method entry.2) ∨ outside c.name entry.2
  constructors : ∀ m ∈ c.constructors, filed c.name (.constructor m)
  destructors : ∀ m ∈ c.destructors, filed c.name (.destructor m)
  operators : ∀ m ∈ c.operators, filed c.name (.operator m)
  fields : ∀ d ∈ c.fields, filed c.name (.field d)
  typedefs : ∀ entry ∈ c.typedefs.entries, filed c.name (.typedef entry.2)
  enums : ∀ e ∈ c.enums, filed c.name (.enumeration e)

namespace MadeOf

variable {filed filed' : String → MemberFiling → Prop} {outside outside' : String → Method → Prop}
  {c d : ClassRecord}

theorem imp (hc : c.MadeOf filed outside) (hfiled : ∀ f, filed c.name f → filed' c.name f)
    (houtside : ∀ m, outside c.name m → outside' c.name m) : c.MadeOf filed' outside' where
  isAbstract h := hfiled _ (hc.isAbstract h)
  methods entry h := (hc.methods entry h).imp (hfiled _) (houtside _)
  staticMethods entry h := (hc.staticMethods entry h).imp (hfiled _) (houtside _)
  constructors m h := hfiled _ (hc.constructors m h)
  destructors m h := hfiled _ (hc.destructors m h)
  operators m h := hfiled _ (hc.operators m h)
  fields d h := hfiled _ (hc.fields d h)
  typedefs entry h := hfiled _ (hc.typedefs entry h)
  enums e h := hfiled _ (hc.enums e h)

theorem bare (name : String) (comment : Option String) (superclasses : List String) :
    ({ name, comment, superclasses } : ClassRecord).MadeOf filed outside where
  isAbstract h := absurd h Bool.false_ne_true
  methods _ h := absurd h List.not_mem_nil
  staticMethods _ h := absurd h List.not_mem_nil
  constructors _ h := absurd h List.not_mem_nil
  destructors _ h := absurd h List.not_mem_nil
  operators _ h := absurd h List.not_mem_nil
  fields _ h := absurd h List.not_mem_nil
  typedefs _ h := absurd h List.not_mem_nil
  enums _ h := absurd h List.not_mem_nil

theorem addMethod (hc : c.MadeOf filed outside) (m : Method)
    (hm : filed c.name (.method m) ∨ outside c.name m) :
    (c.addMethod m).MadeOf filed outside := by
  unfold ClassRecord.addMethod
  split
  · exact { hc with
      staticMethods := c.staticMethods.forall_insert m.signatureKey m hc.staticMethods hm }
  · exact { hc with methods := c.methods.forall_insert m.signatureKey m hc.methods hm }

/-- Filing one thing adds no other part. Nested classes have their own parts. -/
theorem file (hc : c.MadeOf filed outside) {f : MemberFiling} (hf : filed c.name f) :
    (c.file f).MadeOf filed outside := by
  cases f with
  | abstractMark => exact { hc with isAbstract := fun _ => hf }
  | field d =>
      exact { hc with
        fields := List.forall_mem_append.mpr ⟨hc.fields, List.forall_mem_singleton.mpr hf⟩ }
  | enumeration e =>
      exact { hc with
        enums := List.forall_mem_append.mpr ⟨hc.enums, List.forall_mem_singleton.mpr hf⟩ }
  | typedef t => exact { hc with typedefs := c.typedefs.forall_insert t.name t hc.typedefs hf }
  | destructor m =>
      exact { hc with
        destructors :=
          List.forall_mem_append.mpr ⟨hc.destructors, List.forall_mem_singleton.mpr hf⟩ }
  | constructor m =>
      change (Extraction.addConstructor c m).MadeOf filed outside
      unfold Extraction.addConstructor
      split
      · exact { hc with
          constructors :=
            List.forall_mem_append.mpr ⟨hc.constructors, List.forall_mem_singleton.mpr hf⟩ }
      · exact hc
  | operator m =>
      exact { hc with
        operators := List.forall_mem_append.mpr ⟨hc.operators, List.forall_mem_singleton.mpr hf⟩ }
  | method m => exact hc.addMethod m (Or.inl hf)
  | inner d => exact { hc with }

/-- Folding records of one name adds no other part. -/
theorem extend (hc : c.MadeOf filed outside) (hd : d.MadeOf filed outside)
    (hname : d.name = c.name) : (c.extend d).MadeOf filed outside := by
  -- What is folded in was filed for a class of the same name.
  rcases hd with ⟨habstract, hmethods, hstatic, hconstructors, hdestructors, hoperators, hfields,
    htypedefs, henums⟩
  rw [hname] at habstract hmethods hstatic hconstructors hdestructors hoperators
  rw [hname] at hfields htypedefs henums
  refine ⟨?_, ?_, ?_, ?_, ?_, ?_, ?_, ?_, ?_⟩
  all_goals rw [ClassRecord.name_extend]
  · rw [ClassRecord.isAbstract_extend, Bool.or_eq_true]
    exact fun h => h.elim hc.isAbstract habstract
  · rw [ClassRecord.methods_extend]
    exact c.methods.forall_union _ hc.methods hmethods
  · rw [ClassRecord.staticMethods_extend]
    exact c.staticMethods.forall_union _ hc.staticMethods hstatic
  · rw [ClassRecord.constructors_extend]
    exact forall_replaceOrAppend _ _ _ _ hc.constructors hconstructors
  · rw [ClassRecord.destructors_extend]
    exact forall_replaceOrAppend _ _ _ _ hc.destructors hdestructors
  · rw [ClassRecord.operators_extend]
    exact forall_replaceOrAppend _ _ _ _ hc.operators hoperators
  · rw [ClassRecord.fields_extend]
    exact List.forall_mem_append.mpr ⟨hc.fields, hfields⟩
  · rw [ClassRecord.typedefs_extend]
    exact c.typedefs.forall_union _ hc.typedefs htypedefs
  · rw [ClassRecord.enums_extend]
    exact List.forall_mem_append.mpr ⟨hc.enums, henums⟩

end MadeOf

end ClassRecord

namespace Extraction

open Syntax

section

variable (code : List Char) (tree : Node)

/-- A member in a body of a class files a thing. -/
def FiledBy (item : Located) (owner : String) (f : MemberFiling) : Prop :=
  ∃ n access, DefinesClass code tree owner n ∧ (access, item.node) ∈ bodyMembers code n ∧
    MemberFiles code item access owner f

/-- An item outside of classes defines a function of a class and is read as its record. -/
def FiledOutsideBy (item : Located) (owner : String) (m : Method) : Prop :=
  ∃ namespaces function parts, (namespaces, item.node) ∈ scopeItems code [] tree.children ∧
    (item.node.child? "type").isSome ∧ outOfLineName? code item.node = some parts ∧
    owner = qualified (scopeName namespaces) (String.ofList parts.1) ∧
    ReadsFunction code item function (String.ofList parts.2) m

/-- An item outside of classes declares a function of no class and is read as its record. -/
def FunctionFiledBy (item : Located) (f : FreeFunction) : Prop :=
  ∃ namespaces function m, (namespaces, item.node) ∈ scopeItems code [] tree.children ∧
    ReadsFunction code item function f.name m ∧ f.returnType = m.returnType

/-- A thing is filed in a class by some member of it. -/
def Filed (owner : String) (f : MemberFiling) : Prop :=
  ∃ item, FiledBy code tree item owner f

/-- A method is filed in a class from outside by some item. -/
def FiledOutside (owner : String) (m : Method) : Prop :=
  ∃ item, FiledOutsideBy code tree item owner m

/-- A function of no class is filed by some item. -/
def FunctionFiled (f : FreeFunction) : Prop :=
  ∃ item, FunctionFiledBy code tree item f

/-- A record and all records nested in it have their parts from the members of their class. -/
abbrev FiledInside (c : ClassRecord) : Prop :=
  c.Everywhere fun c => c.Keyed ∧ c.MadeOf (Filed code tree) fun _ _ => False

/-- A record has methods from outside of its class besides. The records nested in it have none. -/
structure FiledAround (c : ClassRecord) : Prop where
  keyed : c.Keyed
  here : c.MadeOf (Filed code tree) (FiledOutside code tree)
  nested : ∀ entry ∈ c.innerClasses.entries, FiledInside code tree entry.2

/-- A thing that is filed in a header has its parts from the tree. -/
def SourcedFiling : Filing → Prop
  | .record c | .template c _ => FiledInside code tree c
  | .setAside entry | .outOfLine entry => FiledOutside code tree entry.1 entry.2
  | .function f => FunctionFiled code tree f
  | _ => True

end

section Classes

variable {code : List Char} {tree : Node}

theorem filedInside_bare (name : String) (comment : Option String) (superclasses : List String) :
    FiledInside code tree { name, comment, superclasses } := by
  refine ClassRecord.Everywhere.mk _ ⟨?_, .bare name comment superclasses⟩ ?_
  all_goals exact fun _ h => absurd h List.not_mem_nil

/-- Only a nested class is filed among the nested classes. -/
theorem innerClasses_file (c : ClassRecord) {f : MemberFiling} (hf : ∀ d, f ≠ .inner d) :
    (c.file f).innerClasses = c.innerClasses := by
  cases f with
  | inner d => exact absurd rfl (hf d)
  | constructor m =>
      change (addConstructor c m).innerClasses = _
      rw [addConstructor, apply_ite ClassRecord.innerClasses]
      exact ite_self _
  | method m =>
      change (c.addMethod m).innerClasses = _
      rw [ClassRecord.addMethod, apply_ite ClassRecord.innerClasses]
      exact ite_self _
  | _ => rfl

theorem FiledInside.file {c : ClassRecord} {f : MemberFiling} (hc : FiledInside code tree c)
    (hf : Filed code tree c.name f) (hinner : ∀ d, f = .inner d → FiledInside code tree d) :
    FiledInside code tree (c.file f) := by
  have hhere := hc.here.2.file hf
  by_cases hnested : ∀ d, f ≠ .inner d
  · have hsame := innerClasses_file c hnested
    refine hc.of_innerClasses_eq ⟨?_, hhere⟩ hsame
    rw [ClassRecord.Keyed, hsame]
    exact hc.here.1
  · simp only [ne_eq, not_forall, not_not] at hnested
    rcases hnested with ⟨d, rfl⟩
    exact addInnerClass_everywhere (fun _ _ hc hd hname _ => hc.extend hd hname) (fun _ => hhere)
      hc (hinner d rfl)

theorem FiledInside.fileAll {c : ClassRecord} {filings : List MemberFiling}
    (hc : FiledInside code tree c) (hf : ∀ f ∈ filings, Filed code tree c.name f)
    (hinner : ∀ d, .inner d ∈ filings → FiledInside code tree d) :
    FiledInside code tree (c.fileAll filings) := by
  unfold ClassRecord.fileAll
  induction filings generalizing c with
  | nil => exact hc
  | cons f filings ih =>
      rw [List.forall_mem_cons] at hf
      rw [List.foldl_cons]
      refine ih (hc.file hf.1 fun d hd => hinner d (hd ▸ List.mem_cons_self)) (fun g hg => ?_)
        fun d hd => hinner d (List.mem_cons_of_mem _ hd)
      rw [(c.file_spec f).1]
      exact hf.2 g hg

/-- The parts of a class that is read, and of all classes nested in it, come from the members of
    their bodies. -/
theorem parseClass_madeOf {n : Located} {scope : String} {c : ClassRecord}
    (h : parseClass code n scope = .ok (some c))
    (hdefines : ∀ name, definedName? code scope n.node = some name →
      DefinesClass code tree name n.node) : FiledInside code tree c := by
  induction hsize : sizeOf n.node using Nat.strongRecOn generalizing n scope c with
  | ind size ih =>
      subst hsize
      rcases parseClass_files h with ⟨name, comment, superclasses, items, lists, hname, hitems,
        hlists, rfl⟩
      have hn := hdefines name hname
      -- Everything on the lists is filed by a member of this body.
      have hsource : ∀ f ∈ lists.flatten, ∃ item ∈ items,
          (item.1, item.2.node) ∈ bodyMembers code n.node ∧
            MemberFiles code item.2 item.1 name f := by
        intro f hf
        rcases List.mem_flatten.mp hf with ⟨filings, hfilings, hf⟩
        rcases exists_mem_of_forall₂ hlists hfilings with ⟨item, hitem, hread⟩
        refine ⟨item, hitem, ?_, memberFiles_of_mem hread hf⟩
        rw [← hitems]
        exact List.mem_map_of_mem hitem
      refine (filedInside_bare name comment superclasses).fileAll (fun f hf => ?_) fun d hd => ?_
      · rcases hsource f hf with ⟨item, _, hitem, hfiles⟩
        exact ⟨item.2, n.node, item.1, hn, hitem, hfiles⟩
      · rcases hsource _ hd with ⟨item, _, hitem, hfiles⟩
        cases hfiles with
        | inner l d hl hparsed =>
            rcases hparsed with hparsed | ⟨inner, rfl⟩
            · refine ih (sizeOf l.node) ?_ hparsed (fun e he => ?_) rfl
              · exact Nat.lt_of_le_of_lt (sizeOf_le_of_nestedClass? _ _ hl)
                  (sizeOf_lt_of_mem_bodyMembers _ _ hitem)
              · exact DefinesClass.nested name n.node item.2.node l.node item.1 e hn hitem hl he
            · exact filedInside_bare inner none []

end Classes

namespace FiledAround

variable {code : List Char} {tree : Node} {c d : ClassRecord}

theorem of_filedInside (hc : FiledInside code tree c) : FiledAround code tree c where
  keyed := hc.here.1
  here := hc.here.2.imp (fun _ => id) fun _ => False.elim
  nested := hc.nested

/-- Folding goes on with the nested classes, and none of them gets anything from outside. -/
theorem extend (hc : FiledAround code tree c) (hd : FiledInside code tree d)
    (hname : d.name = c.name) : FiledAround code tree (c.extend d) := by
  have hinner : ∀ entry ∈ (c.extend d).innerClasses.entries,
      entry.1 = entry.2.name ∧ FiledInside code tree entry.2 := by
    rw [ClassRecord.innerClasses_extend]
    refine ClassRecord.forall_foldl_inner _ _ (fun entry hentry => ?_) (fun entry hentry => ?_)
    · exact ⟨hc.keyed entry hentry, hc.nested entry hentry⟩
    · refine ⟨hd.here.1 entry hentry, hd.nested entry hentry, fun first hfirst hsame => ?_⟩
      exact ClassRecord.Everywhere.extend (fun _ _ hc hd hname _ => hc.extend hd hname) hfirst
        (hd.nested entry hentry) hsame
  exact {
    keyed := fun entry hentry => (hinner entry hentry).1
    here := hc.here.extend (of_filedInside hd).here hname
    nested := fun entry hentry => (hinner entry hentry).2 }

theorem addMethod (hc : FiledAround code tree c) {m : Method}
    (hm : FiledOutside code tree c.name m) : FiledAround code tree (c.addMethod m) := by
  have hsame : (c.addMethod m).innerClasses = c.innerClasses := by
    rw [ClassRecord.addMethod, apply_ite ClassRecord.innerClasses, ite_self]
  refine ⟨?_, hc.here.addMethod m (Or.inr hm), ?_⟩
  · rw [ClassRecord.Keyed, hsame]
    exact hc.keyed
  · rw [hsame]
    exact hc.nested

end FiledAround

namespace Collector

theorem forall_addDistinct {p : FreeFunction → Prop} {functions : List FreeFunction}
    {f : FreeFunction} (hfunctions : ∀ g ∈ functions, p g) (hf : p f) :
    ∀ g ∈ addDistinct functions f, p g := by
  unfold addDistinct
  split
  · exact hfunctions
  · exact List.forall_mem_append.mpr ⟨hfunctions, List.forall_mem_singleton.mpr hf⟩

variable (code : List Char) (tree : Node)

/-- The records that are collected have their parts from the tree, and every slot is right. -/
structure Sourced (s : Collector) : Prop where
  functions : ∀ f ∈ s.header.functions, FunctionFiled code tree f
  operators : ∀ f ∈ s.header.operators, FunctionFiled code tree f
  classes : Slotted (FiledAround code tree) (·.name) s.classSlots s.header.classes
  templates : Slotted (fun t => FiledInside code tree t.record) (·.record.name) s.templateSlots
    s.header.classTemplates

variable {code tree} {s s' : Collector}

theorem insertClass_sourced (hs : s.Sourced code tree) {c : ClassRecord}
    (hc : FiledInside code tree c) (h : s.insertClass c = .ok s') : s'.Sourced code tree := by
  have hpath : FiledInside code tree { c with path := some s.header.path } :=
    hc.of_innerClasses_eq ⟨hc.here.1, { hc.here.2 with }⟩ rfl
  rcases insertClass_cases h with ⟨hslot, rfl⟩ | ⟨slot, first, hslot, hfirst, rfl⟩
  · exact { hs with classes := hs.classes.push _ (.of_filedInside hpath) hslot }
  · have hname : first.name = c.name := hs.classes.name_eq hslot hfirst
    have hold := hs.classes.forall_mem first (List.mem_of_getElem? hfirst)
    exact { hs with
      classes := hs.classes.set hfirst (hold.extend hpath hname.symm) (first.name_extend _) }

theorem insertTemplate_sourced (hs : s.Sourced code tree) {c : ClassRecord}
    (params : List TemplateParam) (hc : FiledInside code tree c)
    (h : s.insertTemplate c params = .ok s') : s'.Sourced code tree := by
  have hpath : FiledInside code tree { c with path := some s.header.path } :=
    hc.of_innerClasses_eq ⟨hc.here.1, { hc.here.2 with }⟩ rfl
  rcases insertTemplate_cases h with ⟨hslot, rfl⟩ | ⟨slot, first, hslot, hfirst, rfl⟩
  · have hpush := hs.templates.push
      { record := { c with path := some s.header.path }, typeParams := params } hpath hslot
    exact { hs with templates := hpush }
  · have hname : first.record.name = c.name := hs.templates.name_eq hslot hfirst
    have hold := hs.templates.forall_mem first (List.mem_of_getElem? hfirst)
    have hmerged := ClassRecord.Everywhere.extend
      (fun _ _ hc hd hname _ => hc.extend hd hname) hold hpath hname.symm
    exact { hs with
      templates := hs.templates.set hfirst hmerged (first.record.name_extend _) }

theorem fileOutOfLine_sourced (hs : s.Sourced code tree) {entry : String × Method}
    (hentry : FiledOutside code tree entry.1 entry.2) (h : s.fileOutOfLine entry = .ok s') :
    s'.Sourced code tree := by
  rcases fileOutOfLine_cases h with rfl | ⟨slot, c, hslot, hfound, _, rfl⟩
  · exact hs
  · have hname : c.name = entry.1 := hs.classes.name_eq hslot hfound
    have hold := hs.classes.forall_mem c (List.mem_of_getElem? hfound)
    exact { hs with
      classes := hs.classes.set hfound (hold.addMethod (hname ▸ hentry))
        (c.addMethod_keeps entry.2).1 }

theorem file_sourced (hs : s.Sourced code tree) {f : Filing} (hf : SourcedFiling code tree f)
    (h : s.file f = .ok s') : s'.Sourced code tree := by
  cases f with
  | record c => exact insertClass_sourced hs hf h
  | template c params => exact insertTemplate_sourced hs params hf h
  | outOfLine entry => exact fileOutOfLine_sourced hs hf h
  | dependency | enumeration | typedef | setAside => exact pure_eq_ok.mp h ▸ { hs with }
  | forward name =>
      change pure (s.addForward name) = Except.ok s' at h
      rw [← pure_eq_ok.mp h, addForward]
      split
      · exact hs
      · exact { hs with }
  | function f =>
      change pure (s.insertFunction f) = Except.ok s' at h
      rw [← pure_eq_ok.mp h, insertFunction]
      split
      · exact { hs with operators := forall_addDistinct hs.operators hf }
      · exact { hs with functions := forall_addDistinct hs.functions hf }

end Collector

/-- Everything on the list of an item has its parts from the tree. -/
theorem sourcedFiling_of_mem {code : List Char} {tree : Node} {namespaces : List String}
    {n : Located} {f : Filing} (hitem : (namespaces, n.node) ∈ scopeItems code [] tree.children)
    (hf : ItemFiles code n namespaces f) : SourcedFiling code tree f := by
  cases hf with
  | record l c hl hc | template l c _ _ hl hc _ =>
      exact parseClass_madeOf hc fun name hname =>
        DefinesClass.outer namespaces n.node l.node name hitem hl hname
  | setAside function parts m htype hparts hm =>
      exact ⟨n, namespaces, function, parts, hitem, htype, hparts, rfl, hm⟩
  | function function f m hm hreturn => exact ⟨n, namespaces, function, m, hitem, hm, hreturn⟩
  | _ => trivial

/-- Every part of the class records of a header is filed by a member of their class, or it is a
    method of a class outside of other classes and is defined outside of it. Functions outside of
    classes are declared there. -/
theorem extractHeader_madeOf {code : List Char} {path : Path} {tree : Node} {header : Header}
    (h : extractHeader code path tree = .ok header) :
    (∀ c ∈ header.classes, FiledAround code tree c) ∧
      (∀ t ∈ header.classTemplates, FiledInside code tree t.record) ∧
      (∀ f ∈ header.functions, FunctionFiled code tree f) ∧
      ∀ f ∈ header.operators, FunctionFiled code tree f := by
  rcases extractHeader_files h with ⟨items, lists, s, hitems, hlists, hfile, rfl⟩
  have hsource : ∀ f ∈ lists.flatten, SourcedFiling code tree f := by
    intro f hf
    rcases List.mem_flatten.mp hf with ⟨filings, hfilings, hf⟩
    rcases exists_mem_of_forall₂ hlists hfilings with ⟨item, hitem, hread⟩
    refine sourcedFiling_of_mem ?_ (itemFiles_of_mem hread hf)
    rw [← hitems]
    exact List.mem_map_of_mem hitem
  have hall : ∀ f ∈ lists.flatten ++ (lists.flatten.filterMap (·.setAside?)).map .outOfLine,
      SourcedFiling code tree f := by
    refine List.forall_mem_append.mpr ⟨hsource, List.forall_mem_map.mpr fun entry hentry => ?_⟩
    -- What is filed at the end has been set aside on the way.
    rcases List.mem_filterMap.mp hentry with ⟨f, hf, hset⟩
    cases f with
    | setAside other =>
        obtain rfl := Option.some.inj hset
        exact hsource (.setAside other) hf
    | _ => exact absurd hset.symm (Option.some_ne_none entry)
  have hstart : Collector.Sourced code tree { header := Header.ofPath path } := {
    functions := fun _ hf => absurd hf List.not_mem_nil
    operators := fun _ hf => absurd hf List.not_mem_nil
    classes := Slotted.empty
    templates := Slotted.empty }
  have hs := foldlM_run (Collector.Sourced code tree) hstart
    (fun f hf s s' hs hstep => Collector.file_sourced hs (hall f hf) hstep) hfile
  exact ⟨hs.classes.forall_mem, hs.templates.forall_mem, hs.functions, hs.operators⟩

end Extraction

end HeaderBinding
