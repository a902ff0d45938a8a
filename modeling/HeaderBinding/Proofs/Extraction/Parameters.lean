import Mathlib.Data.List.Forall2
import HeaderBinding.Proofs.Extraction.Declarators
import HeaderBinding.Proofs.Extraction.Placement

/-!
# Parameters

Which parameters of functions and templates are recorded.

A parameter of a function has its name in a declarator, and where the name ends is checked against
the end of the declared part. The check never fails where the name stands in front of the default
value: dropping blanks and a sign at the end of the text in between stops at the name
(`Names.stop_le`). So each parameter that is looked at has an entry, with its name if it has one,
except for a lone `void`.

A parameter of a template has its name in one of several places, by its kind. One that is a template
itself has the name of the parameter inside (`innermost`). There is an entry for each that declares
a name, and entries are in the order of the list. The first declaration of a class template decides
what its parameters are (`extractHeader_parameters`).

Packs are the exception, in both lists. A pack of types counts as a parameter of a template, but a
pack of values and a pack of function parameters are of a kind that is not looked at, and nothing is
recorded of them, whatever their name.

## Main definitions

* `isPack`: The kind of a parameter that stands for any number of values.
* `Names`: The name that a parameter of a function has.
* `ReadAs`: What may be read of a parameter of a function.
* `templateName?`: The name that a parameter of a template declares.
* `namesBesidesPacks`: The names that are recorded of a list of parameters of a template.
* `DeclaresTemplate`: A class template is declared with its parameters.

## Theorems

* `readAs_argument?`: Every parameter of a function has an entry with its name.
* `names_templateParam?`: A parameter of a template has an entry with the name that it declares.
* `extractHeader_parameters`: Where the parameters of a class template are declared.
* `parameters_recorded`: All lists of parameters, but for packs.
-/

namespace HeaderBinding

namespace Extraction

open Syntax

/-- A kind of node that is a parameter which stands for any number of values. -/
def isPack (kind : String) : Bool :=
  kind == "variadic_parameter_declaration"

/-- The name in the declarator of a parameter. -/
def declaredName? (param : Node) : Option Node :=
  (param.child? "declarator").bind fun d => declaredIdentifier? d.node

section Function

variable {code : List Char} {param name : Node}

/-- The name of a parameter of a function: it is in the declarator, stands in front of the default
    value, and is spelled with something other than a blank or a sign at the end. -/
structure Names (code : List Char) (param name : Node) : Prop where
  declared : declaredName? param = some name
  inFront : ∀ value, param.child? "default_value" = some value → name.stop ≤ value.node.start
  spelled : ∃ front c, textOf code name = .ok (front ++ [c]) ∧ Text.isBlank c = false ∧ c ≠ '='

variable (code param) in
/-- What may be read of a parameter of a function. -/
inductive ReadAs : Option Argument → Prop
  | named (name : Node) (arg : Argument) (h : Names code param name)
      (hname : nameOf code name = .ok arg.name) : ReadAs (some arg)
  | unnamed (arg : Argument) (h : ∀ name, ¬ Names code param name)
      (hname : declaredName? param = none → arg.name = "") : ReadAs (some arg)
  | void (stop : Nat) (text : List Char) (h : ∀ name, ¬ Names code param name)
      (hstop : parameterStop code param = .ok stop)
      (htext : slice code param.start stop = .ok text) (hvoid : spell text = "void") : ReadAs none

theorem within_of_declaredName? (h : declaredName? param = some name) : Within param name := by
  rcases Option.bind_eq_some_iff.mp h with ⟨d, hd, hname⟩
  exact (within_of_child? hd).trans (within_of_declaredIdentifier? hname)

/-- The declared part of a parameter goes at least to the end of its name. -/
theorem Names.stop_le (h : Names code param name) (hparam : WellPlaced code param) {stop : Nat}
    (hstop : parameterStop code param = .ok stop) : name.stop ≤ stop := by
  have hrange := hparam.range (within_of_declaredName? h.declared)
  unfold parameterStop at hstop
  split at hstop
  · obtain rfl := pure_eq_ok.mp hstop
    exact hrange.2
  · next value hvalue =>
    rw [bind_eq_ok] at hstop
    rcases hstop with ⟨text, htext, hstop⟩
    obtain rfl := pure_eq_ok.mp hstop
    rcases h.spelled with ⟨front, c, hname, hblank, hsign⟩
    rcases Text.slice?_within (slice_eq_ok.mp htext) (slice_eq_ok.mp hname) hrange.1
      (h.inFront value hvalue) with ⟨before, hprefix, hend⟩
    rw [← List.append_assoc] at hprefix hend
    -- The last character of the name is neither dropped as a blank nor as the sign.
    have htrim := Text.prefix_dropEndWhile hblank hprefix
    have hkept : before ++ front ++ [c] <+: if (Text.trimEnd text).getLast? == some '=' then
        Text.trimEnd (Text.trimEnd text).dropLast else Text.trimEnd text := by
      split
      · next hlast =>
        exact Text.prefix_dropEndWhile hblank
          (Text.prefix_dropLast hsign htrim (beq_iff_eq.mp hlast))
      · exact htrim
    rw [← hend]
    exact Nat.add_le_add_left (Text.byteLength_le_of_prefix hkept) _

/-- Every parameter of a function has an entry with its name, except for a lone `void`. -/
theorem readAs_argument? (hparam : WellPlaced code param) {reading : Option Argument}
    (h : argument? code param = .ok reading) : ReadAs code param reading := by
  unfold argument? at h
  rw [bind_eq_ok] at h
  rcases h with ⟨stop, hstop, h⟩
  -- A name in the declared part is kept, so what is found is the name unless there is none to find.
  have hkept : ∀ name, Names code param name → (declaredName? param).filter
      (fun n => param.start ≤ n.start && n.stop ≤ stop) = some name := by
    intro name hname
    have hrange := hparam.range (within_of_declaredName? hname.declared)
    rw [hname.declared, Option.filter_some, if_pos]
    rw [Bool.and_eq_true, decide_eq_true_iff, decide_eq_true_iff]
    exact ⟨hrange.1, hname.stop_le hparam hstop⟩
  have hdeclared : ∀ name, (declaredName? param).filter
      (fun n => param.start ≤ n.start && n.stop ≤ stop) = some name →
      declaredName? param = some name :=
    fun name h => (Option.filter_eq_some_iff.mp h).1
  unfold declaredName? at hkept hdeclared
  dsimp only at h
  generalize Option.filter _ _ = found at hkept hdeclared h
  cases found with
  | none =>
      have hnone : ∀ name, ¬ Names code param name :=
        fun name hname => (Option.some_ne_none name) (hkept name hname).symm
      simp only [bind_eq_ok, Option.isNone_none, Bool.and_true] at h
      rcases h with ⟨text, htext, h⟩
      split at h
      · next hvoid =>
        obtain rfl := pure_eq_ok.mp h
        exact .void stop text hnone hstop htext (beq_iff_eq.mp hvoid)
      · simp only [bind_eq_ok, pure_eq_ok] at h
        rcases h with ⟨_, _, _, rfl, rfl⟩
        exact .unnamed _ hnone fun _ => rfl
  | some name =>
      simp only [bind_eq_ok, Option.isNone_some, Bool.and_false, Bool.false_eq_true, if_false,
        pure_eq_ok] at h
      rcases h with ⟨_, _, _, _, _, _, _, _, spelled, hspelled, rfl⟩
      -- What is found may still stand behind the default value, or be spelled with nothing.
      by_cases hnames : Names code param name
      · exact .named name _ hnames hspelled
      · refine .unnamed _ (fun other hother => hnames ?_) fun hnone => ?_
        · rw [Option.some.inj (hkept other hother)]
          exact hother
        · exact absurd ((hdeclared name rfl).symm.trans hnone) (Option.some_ne_none name)

/-- Every list of parameters of a function is read, parameter by parameter. -/
theorem readAs_arguments {list : Node} (hlist : WellPlaced code list) :
    ∃ args, arguments code list = .ok args ∧ ∃ readings,
      List.Forall₂ (ReadAs code) (list.children.filter (isParameter ·.kind)) readings ∧
      args = readings.filterMap id := by
  rcases ((readable_wellPlaced code).arguments hlist).exists_eq_ok with ⟨args, hargs⟩
  refine ⟨args, hargs, ?_⟩
  rw [arguments, collect, bind_eq_ok] at hargs
  rcases hargs with ⟨readings, hreadings, hargs⟩
  refine ⟨readings, ?_, (pure_eq_ok.mp hargs).symm⟩
  have hchildren : ∀ param ∈ list.children.filter (isParameter ·.kind), WellPlaced code param :=
    fun param hparam => hlist.child (List.mem_filter.mp hparam).1
  exact ((List.forall₂_and_left _ _).mpr ⟨hchildren, (mapM_eq_ok_iff _ _ _).mp hreadings⟩).imp
    fun param reading h => readAs_argument? h.1 h.2

end Function

section Template

variable {code : List Char} {param : Node}

/-- The parameter inside of those that are templates. -/
def innermost (param : Node) : Node :=
  if param.kind == "template_template_parameter_declaration" then
    match h : param.rightmostNamed? with
    | some inner =>
      have := Node.sizeOf_lt_of_rightmostNamed? h
      innermost inner
    | none => param
  else param
termination_by sizeOf param

/-- The name that a parameter which is no template declares, in the place where its kind has it. -/
def plainName? (param : Node) : Option Node :=
  if param.kind == "type_parameter_declaration" ||
      param.kind == "variadic_type_parameter_declaration" then
    param.children.reverse.find? (·.kind == "type_identifier")
  else if param.kind == "optional_type_parameter_declaration" then
    (param.child? "name").map (·.node)
  else if isParameter param.kind || isPack param.kind then
    (param.child? "type").bind fun _ => declaredName? param
  else none

/-- The name that a parameter of a template declares. -/
def templateName? (param : Node) : Option Node :=
  plainName? (innermost param)

/-- The parameter is a pack of values, or a template that stands around one. -/
def isPackParameter (param : Node) : Bool :=
  isPack (innermost param).kind

/-- The names that parameters of a template declare, those of packs of values left out. -/
def namesBesidesPacks (params : List Node) : List Node :=
  (params.filter (!isPackParameter ·)).filterMap templateName?

theorem innermost_of_ne (h : param.kind ≠ "template_template_parameter_declaration") :
    innermost param = param := by
  rw [innermost, if_neg (by rw [beq_iff_eq]; exact h)]

theorem rel_of_optionMapM {α β : Type} {R : Node → β → Prop} {f : α → Node}
    {step : α → Extract β} {item : Option α} {found : Option β} (h : item.mapM step = .ok found)
    (hstep : ∀ a b, step a = .ok b → R (f a) b) : Option.Rel R (item.map f) found := by
  cases item with
  | none =>
      obtain rfl := pure_eq_ok.mp h
      exact .none
  | some a =>
      change (step a >>= fun b => pure (some b)) = Except.ok found at h
      rw [bind_eq_ok] at h
      rcases h with ⟨b, hb, h⟩
      obtain rfl := pure_eq_ok.mp h
      exact .some (hstep a b hb)

section Kinds

variable {found : Option TemplateParam} (h : templateParam? code param = .ok found)
include h

theorem names_typeParam (hkind : param.kind = "type_parameter_declaration" ∨
      param.kind = "variadic_type_parameter_declaration") :
    Option.Rel (fun name p => nameOf code name = .ok p.name)
      (param.children.reverse.find? (·.kind == "type_identifier")) found := by
  have hread : (param.children.reverse.find? (·.kind == "type_identifier")).mapM (fun name => do
      return { kind := .type, name := ← nameOf code name : TemplateParam }) = .ok found := by
    rw [templateParam?] at h
    rcases hkind with hkind | hkind
    all_goals
      simp only [hkind] at h
      exact h
  have hrel := rel_of_optionMapM (R := fun name p => nameOf code name = .ok p.name) (f := id) hread
    fun name p hp => by
      simp only [bind_eq_ok, pure_eq_ok] at hp
      rcases hp with ⟨spelled, hspelled, rfl⟩
      exact hspelled
  rwa [Option.map_id_apply] at hrel

theorem names_defaultedTypeParam (hkind : param.kind = "optional_type_parameter_declaration") :
    Option.Rel (fun name p => nameOf code name = .ok p.name)
      ((param.child? "name").map (·.node)) found := by
  rw [templateParam?] at h
  simp only [hkind] at h
  refine rel_of_optionMapM h fun name p hp => ?_
  simp only [bind_eq_ok, pure_eq_ok] at hp
  rcases hp with ⟨spelled, hspelled, _, _, rfl⟩
  exact hspelled

theorem names_valueParam (hkind : isParameter param.kind = true) :
    Option.Rel (fun name p => nameOf code name = .ok p.name)
      ((param.child? "type").bind fun _ => declaredName? param) found := by
  unfold isParameter at hkind
  rw [Bool.or_eq_true, beq_iff_eq, beq_iff_eq] at hkind
  rw [templateParam?] at h
  unfold declaredName?
  generalize (param.child? "declarator").bind _ = declared at h ⊢
  rcases hkind with hkind | hkind
  all_goals
    simp only [hkind] at h
    cases htype : param.child? "type" with
    | none =>
        simp only [htype] at h
        obtain rfl := pure_eq_ok.mp h
        exact .none
    | some type =>
        cases declared with
        | none =>
            simp only [htype] at h
            obtain rfl := pure_eq_ok.mp h
            exact .none
        | some name =>
            simp only [htype, bind_eq_ok, pure_eq_ok] at h
            rcases h with ⟨_, _, spelled, hspelled, _, _, rfl⟩
            exact .some hspelled

end Kinds

theorem innermost_of_template (hkind : param.kind = "template_template_parameter_declaration") :
    innermost param = param.rightmostNamed?.elim param innermost := by
  rw [innermost, if_pos (by rw [hkind]; rfl)]
  split
  · next inner hinner => exact (congrArg (·.elim param innermost) hinner).symm
  · next hnone => exact (congrArg (·.elim param innermost) hnone).symm

/-- A parameter of a template has an entry with the name that it declares, unless it is a pack of
    values. -/
theorem names_templateParam? {found : Option TemplateParam}
    (h : templateParam? code param = .ok found) :
    Option.Rel (fun name p => nameOf code name = .ok p.name)
      (if isPackParameter param then none else templateName? param) found := by
  unfold isPackParameter templateName?
  -- Induction on the size: a parameter that is a template is read as the one inside of it. The
  -- other cases are the kinds of parameters, in the order in which they are asked for.
  induction hsize : sizeOf param using Nat.strongRecOn generalizing param found with
  | _ n ih =>
      have hread := h
      rw [templateParam?] at h
      split at h
      · next hkind =>
        rw [innermost_of_ne (by rw [hkind]; decide), plainName?, hkind]
        exact names_typeParam hread (Or.inl hkind)
      · next hkind =>
        rw [innermost_of_ne (by rw [hkind]; decide), plainName?, hkind]
        exact names_typeParam hread (Or.inr hkind)
      · next hkind =>
        rw [innermost_of_ne (by rw [hkind]; decide), plainName?, hkind]
        exact names_defaultedTypeParam hread hkind
      · next hkind =>
        rw [innermost_of_ne (by rw [hkind]; decide), plainName?, hkind]
        exact names_valueParam hread (by rw [hkind]; rfl)
      · next hkind =>
        rw [innermost_of_ne (by rw [hkind]; decide), plainName?, hkind]
        exact names_valueParam hread (by rw [hkind]; rfl)
      · next hkind =>
        split at h
        · next inner hinner =>
          simp only [bind_eq_ok, pure_eq_ok] at h
          rcases h with ⟨p, hp, rfl⟩
          have hnamed := ih _ (hsize ▸ Node.sizeOf_lt_of_rightmostNamed? hinner) hp rfl
          rw [innermost_of_template hkind, hinner, Option.elim_some]
          generalize (if isPack (innermost inner).kind then none
            else plainName? (innermost inner)) = name at hnamed ⊢
          cases hnamed with
          | none => exact .none
          | some hname => exact .some hname
        · next hnone =>
          obtain rfl := pure_eq_ok.mp h
          rw [innermost_of_template hkind, hnone, Option.elim_none, plainName?, hkind]
          exact .none
      · next htype hvariadic hoptional hplain hdefaulted htemplate =>
        obtain rfl := pure_eq_ok.mp h
        rw [innermost_of_ne htemplate, plainName?, isParameter]
        simp only [beq_eq_false_iff_ne.mpr htype, beq_eq_false_iff_ne.mpr hvariadic,
          beq_eq_false_iff_ne.mpr hoptional, beq_eq_false_iff_ne.mpr hplain,
          beq_eq_false_iff_ne.mpr hdefaulted, Bool.or_self, Bool.false_or, Bool.false_eq_true,
          if_false]
        cases isPack param.kind with
        | false => exact .none
        | true => exact .none

/-- A list of parameters of a template is read as the names that it declares, in order, those of
    packs of values left out. -/
theorem names_collect {list : List Node} {params : List TemplateParam}
    (h : collect (templateParam? code) list = .ok params) :
    (namesBesidesPacks list).mapM (nameOf code) = .ok (params.map (·.name)) := by
  rw [collect, bind_eq_ok] at h
  rcases h with ⟨found, hfound, h⟩
  obtain rfl := pure_eq_ok.mp h
  rw [mapM_eq_ok_iff, List.forall₂_map_right_iff, namesBesidesPacks, List.filterMap_filter]
  have hread := ((mapM_eq_ok_iff _ _ _).mp hfound).imp fun _ _ => names_templateParam?
  refine List.rel_filterMap (fun param p hp => ?_) hread
  -- A pack of values has no entry, and no name on the other side either.
  cases hpack : isPackParameter param with
  | true =>
      rw [hpack, if_pos rfl] at hp
      exact hp
  | false =>
      rw [hpack, if_neg Bool.false_ne_true] at hp
      exact hp

end Template

section Declared

variable {code : List Char}

variable (code) in
/-- A template declaration in some namespaces is of a class with some name and has some
    parameters. -/
structure DeclaresTemplate (namespaces : List String) (n : Node) (name : String)
    (params : List TemplateParam) : Prop where
  kind : n.kind = "template_declaration"
  named : ∃ l c, l.node ∈ itemClasses n ∧
    parseClass code l (scopeName namespaces) = .ok (some c) ∧ c.name = name
  params : collect (templateParam? code) (templateParameters n) = .ok params

theorem scopeItem_eq_template_iff (kind : String) :
    ScopeItem.ofKind kind = .template ↔ kind = "template_declaration" := by
  constructor
  · intro h
    unfold ScopeItem.ofKind at h
    grind
  · rintro rfl
    decide

/-- Filing one thing adds no class template but the one that is filed, and the others keep their
    names and parameters. -/
theorem Collector.file_templates {s s' : Collector} {f : Filing} (h : s.file f = .ok s')
    {P : String → List TemplateParam → Prop}
    (hs : ∀ t ∈ s.header.classTemplates, P t.record.name t.typeParams)
    (hf : ∀ c params, f = .template c params → P c.name params) :
    ∀ t ∈ s'.header.classTemplates, P t.record.name t.typeParams := by
  cases f with
  | dependency | enumeration | typedef | setAside => exact pure_eq_ok.mp h ▸ hs
  | forward name =>
      change pure (s.addForward name) = Except.ok s' at h
      rw [← pure_eq_ok.mp h, addForward]
      split
      · exact hs
      · exact hs
  | function f =>
      change pure (s.insertFunction f) = Except.ok s' at h
      rw [← pure_eq_ok.mp h, insertFunction]
      split
      · exact hs
      · exact hs
  | record c =>
      rcases insertClass_cases h with ⟨_, rfl⟩ | ⟨_, _, _, _, rfl⟩
      · exact hs
      · exact hs
  | outOfLine entry =>
      rcases fileOutOfLine_cases h with rfl | ⟨_, _, _, _, _, rfl⟩
      · exact hs
      · exact hs
  | template c params =>
      rcases insertTemplate_cases h with ⟨_, rfl⟩ | ⟨slot, first, _, hfirst, rfl⟩
      · exact List.forall_mem_append.mpr ⟨hs, List.forall_mem_singleton.mpr (hf c params rfl)⟩
      · intro t ht
        rcases List.mem_or_eq_of_mem_set ht with ht | rfl
        · exact hs t ht
        -- A second declaration extends the record and leaves the name and the parameters.
        · rw [ClassRecord.name_extend]
          exact hs first (List.mem_of_getElem? hfirst)

/-- Each class template of a header has the parameters of a declaration of it in the tree. -/
theorem extractHeader_parameters {path : Path} {tree : Node} {header : Header}
    (h : extractHeader code path tree = .ok header) :
    ∀ t ∈ header.classTemplates, ∃ item ∈ scopeItems code [] tree.children,
      DeclaresTemplate code item.1 item.2 t.record.name t.typeParams := by
  rcases extractHeader_files h with ⟨items, lists, s, hitems, hlists, hfile, rfl⟩
  have hdeclared : ∀ c params, .template c params ∈
      lists.flatten ++ (lists.flatten.filterMap (·.setAside?)).map .outOfLine →
      ∃ item ∈ scopeItems code [] tree.children,
        DeclaresTemplate code item.1 item.2 c.name params := by
    intro c params hf
    rcases List.mem_append.mp hf with hf | hf
    · rcases List.mem_flatten.mp hf with ⟨filings, hfilings, hf⟩
      rcases exists_mem_of_forall₂ hlists hfilings with ⟨item, hitem, hread⟩
      refine ⟨(item.1, item.2.node), hitems ▸ List.mem_map_of_mem hitem, ?_⟩
      cases itemFiles_of_mem hread hf with
      | template l _ _ hkind hl hc hparams =>
          exact ⟨(scopeItem_eq_template_iff _).mp hkind, ⟨l, c, hl, hc, rfl⟩, hparams⟩
    -- What is set aside are functions.
    · rcases List.mem_map.mp hf with ⟨_, _, hf⟩
      exact absurd hf (by simp only [reduceCtorEq, not_false_eq_true])
  let P (name : String) (params : List TemplateParam) : Prop :=
    ∃ item ∈ scopeItems code [] tree.children, DeclaresTemplate code item.1 item.2 name params
  exact foldlM_run (fun s => ∀ t ∈ s.header.classTemplates, P t.record.name t.typeParams)
    (fun _ ht => absurd ht List.not_mem_nil)
    (fun f hf _ _ hs hstep => Collector.file_templates hstep (P := P) hs fun c params hc =>
      hdeclared c params (hc ▸ hf)) hfile

end Declared

/-- All lists of parameters are read, whatever the source. Each parameter of a function that is not
    a pack has an entry with its name, in order, and nothing but a lone `void` is passed over. The
    parameters of a template have the names that the list declares, in order, those of packs of
    values left out, and these are the names of the parameters of every class template. -/
theorem parameters_recorded (code : List Char) :
    (∀ list, WellPlaced code list → ∃ args, arguments code list = .ok args ∧ ∃ readings,
      List.Forall₂ (ReadAs code) (list.children.filter (isParameter ·.kind)) readings ∧
      args = readings.filterMap id) ∧
    (∀ list, WellPlaced code list → ∃ params, templateParams code list = .ok params ∧
      (namesBesidesPacks list.children).mapM (nameOf code) = .ok (params.map (·.name))) ∧
    ∀ path tree header, extractHeader code path tree = .ok header → ∀ t ∈ header.classTemplates,
      ∃ item ∈ scopeItems code [] tree.children,
        DeclaresTemplate code item.1 item.2 t.record.name t.typeParams ∧
        (namesBesidesPacks (templateParameters item.2)).mapM (nameOf code) =
          .ok t.paramNames := by
  refine ⟨fun list hlist => readAs_arguments hlist, fun list hlist => ?_,
    fun path tree header hheader t ht => ?_⟩
  · rcases ((readable_wellPlaced code).templateParams hlist).exists_eq_ok with ⟨params, hparams⟩
    exact ⟨params, hparams, names_collect hparams⟩
  · rcases extractHeader_parameters hheader t ht with ⟨item, hitem, hdeclares⟩
    exact ⟨item, hitem, hdeclares, names_collect hdeclares.params⟩

section Defaulted

/-- A class template whose parameter has a default value. -/
def defaultedSource : List Char := "template<int N = 3> class A \x7b\x7d;".toList

/-- The parameter. -/
def defaultedParameter : Node :=
  { kind := "optional_parameter_declaration", named := true, start := 9, stop := 18
    fields := [("declarator", 1), ("default_value", 3), ("type", 0)]
    children := [leaf "primitive_type" true 9 12, leaf "identifier" true 13 14,
      leaf "=" false 15 16, leaf "number_literal" true 17 18] }

/-- The list of parameters. -/
def defaultedList : Node :=
  { kind := "template_parameter_list", named := true, start := 8, stop := 19, fields := []
    children := [leaf "<" false 8 9, defaultedParameter, leaf ">" false 18 19] }

/-- The class. -/
def defaultedClass : Node :=
  { kind := "class_specifier", named := true, start := 20, stop := 30
    fields := [("body", 2), ("name", 1)]
    children := [leaf "class" false 20 25, leaf "type_identifier" true 26 27,
      { kind := "field_declaration_list", named := true, start := 28, stop := 30, fields := []
        children := [leaf "\x7b" false 28 29, leaf "\x7d" false 29 30] }] }

/-- The template. -/
def defaultedTemplate : Node :=
  { kind := "template_declaration", named := true, start := 0, stop := 31
    fields := [("parameters", 1)]
    children := [leaf "template" false 0 8, defaultedList, defaultedClass, leaf ";" false 30 31] }

/-- The tree of the header. -/
def defaultedTree : Node :=
  { kind := "translation_unit", named := true, start := 0, stop := 31, fields := []
    children := [defaultedTemplate] }

/-- The record of the header. -/
def defaultedHeader : Header :=
  { Header.ofPath "gp_Test.hxx" with
    classTemplates := [{
      record := { name := "A", path := some "gp_Test.hxx" }
      typeParams := [{ kind := .nonType "int", name := "N", defaultValue := some "3" }] }] }

theorem wellPlaced_defaultedList : WellPlaced defaultedSource defaultedList := by
  have hparameter : WellPlaced defaultedSource defaultedParameter :=
    wellPlaced_of_forall (by decide) ⟨wellPlaced_leaf (by decide), wellPlaced_leaf (by decide),
      wellPlaced_leaf (by decide), wellPlaced_leaf (by decide)⟩
  exact wellPlaced_of_forall (by decide)
    ⟨wellPlaced_leaf (by decide), hparameter, wellPlaced_leaf (by decide)⟩

theorem templateParams_defaulted : templateParams defaultedSource defaultedList =
    .ok [{ kind := .nonType "int", name := "N", defaultValue := some "3" }] := by
  have hname : declaredIdentifier? (leaf "identifier" true 13 14) = some _ :=
    declaredIdentifier?_of_isIdentifier rfl
  have hdeclarator : defaultedParameter.child? "declarator" =
      some ⟨leaf "identifier" true 13 14, [leaf "primitive_type" true 9 12]⟩ := rfl
  have hparam : templateParam? defaultedSource defaultedParameter =
      .ok (some { kind := .nonType "int", name := "N", defaultValue := some "3" }) := by
    rw [templateParam?]
    simp only [hdeclarator, Option.bind_some, hname]
    rfl
  have hmarks : ∀ mark ∈ [leaf "<" false 8 9, leaf ">" false 18 19],
      templateParam? defaultedSource mark = .ok none := by
    refine List.forall_mem_cons.mpr ⟨?_, List.forall_mem_singleton.mpr ?_⟩
    all_goals
      rw [templateParam?]
      rfl
  rw [templateParams, collect, bind_eq_ok]
  exact ⟨_, (mapM_eq_ok_iff _ _ _).mpr (.cons (hmarks _ List.mem_cons_self) (.cons hparam
    (.cons (hmarks _ (List.mem_cons_of_mem _ List.mem_cons_self)) .nil))), rfl⟩

theorem extractHeader_defaulted :
    extractHeader defaultedSource "gp_Test.hxx" defaultedTree = .ok defaultedHeader := by
  have hclass : parseClass defaultedSource
      ⟨defaultedClass, [defaultedList, leaf "template" false 0 8]⟩ "" =
        .ok (some { name := "A" }) := by
    have hwalk : visitMembers defaultedSource [] [leaf "\x7b" false 28 29, leaf "\x7d" false 29 30]
        ({ name := "A" }, .isPrivate) = .ok ({ name := "A" }, .isPrivate) := by
      rw [visitMembers_cons, bind_eq_ok]
      refine ⟨_, rfl, ?_⟩
      rw [visitMembers_cons, bind_eq_ok]
      refine ⟨_, rfl, ?_⟩
      rw [visitMembers]
      rfl
    exact parseClass_eq_ok rfl (by decide) rfl rfl rfl rfl hwalk
  have hfile : Collector.addTemplate defaultedSource defaultedTemplate []
      { header := Header.ofPath "gp_Test.hxx" } = .ok {
        header := defaultedHeader
        templateSlots := (∅ : Std.HashMap String Nat).insert "A" 0 } := by
    have hlist : defaultedTemplate.child? "parameters" =
        some ⟨defaultedList, [leaf "template" false 0 8]⟩ := rfl
    have hclasses : defaultedTemplate.located.filterMap Collector.templatedClass? =
        [⟨defaultedClass, [defaultedList, leaf "template" false 0 8]⟩] := rfl
    simp only [Collector.addTemplate, hlist, templateParams_defaulted, hclasses, bind_eq_ok]
    refine ⟨_, rfl, ?_⟩
    rw [List.foldlM_cons, bind_eq_ok]
    refine ⟨_, bind_eq_ok.mpr ⟨_, hclass, ?_⟩, rfl⟩
    simp only [Collector.insertTemplate, Std.HashMap.getElem?_empty]
    rfl
  rw [extractHeader, defaultedTree, bind_eq_ok]
  refine ⟨{
    header := defaultedHeader
    templateSlots := (∅ : Std.HashMap String Nat).insert "A" 0 }, ?_, rfl⟩
  rw [visitScope_cons, bind_eq_ok]
  refine ⟨_, hfile, ?_⟩
  rw [Collector.visitScope]
  rfl

theorem parameters_recorded_defaulted :
    WellPlaced defaultedSource defaultedList ∧
      extractHeader defaultedSource "gp_Test.hxx" defaultedTree = .ok defaultedHeader ∧
      (∃ args, arguments defaultedSource defaultedList = .ok args ∧ ∃ readings,
        List.Forall₂ (ReadAs defaultedSource) [defaultedParameter] readings ∧
        args = readings.filterMap id) ∧
      (∃ params, templateParams defaultedSource defaultedList = .ok params ∧
        (namesBesidesPacks defaultedList.children).mapM (nameOf defaultedSource) =
          .ok (params.map (·.name))) ∧
      ∃ item ∈ scopeItems defaultedSource [] defaultedTree.children,
        (namesBesidesPacks (templateParameters item.2)).mapM (nameOf defaultedSource) =
          .ok ["N"] := by
  rcases parameters_recorded defaultedSource with ⟨hfunction, htemplate, hheader⟩
  rcases hheader _ _ _ extractHeader_defaulted _ (List.mem_singleton_self _) with
    ⟨item, hitem, _, hnames⟩
  exact ⟨wellPlaced_defaultedList, extractHeader_defaulted, hfunction _ wellPlaced_defaultedList,
    htemplate _ wellPlaced_defaultedList, item, hitem, hnames⟩

end Defaulted

section Pack

/-- A function template whose template parameter and whose function parameter are packs. -/
def packSource : List Char := "template<int... N> void f(T... n);".toList

/-- A declarator of a pack, with dots in front of the name. -/
def packDeclarator (start stop : Nat) : Node :=
  { kind := "variadic_declarator", named := true, start := start, stop := stop, fields := []
    children := [leaf "..." false start (start + 3), leaf "identifier" true (stop - 1) stop] }

/-- A pack of values. -/
def pack (type : Node) (stop : Nat) : Node :=
  { kind := "variadic_parameter_declaration", named := true, start := type.start, stop := stop
    fields := [("declarator", 1), ("type", 0)]
    children := [type, packDeclarator type.stop stop] }

/-- The parameters of the template. -/
def packTemplateList : Node :=
  { kind := "template_parameter_list", named := true, start := 8, stop := 18, fields := []
    children := [leaf "<" false 8 9, pack (leaf "primitive_type" true 9 12) 17,
      leaf ">" false 17 18] }

/-- The parameters of the function. -/
def packList : Node :=
  { kind := "parameter_list", named := true, start := 25, stop := 33, fields := []
    children := [leaf "(" false 25 26, pack (leaf "type_identifier" true 26 27) 32,
      leaf ")" false 32 33] }

theorem declaredIdentifier?_of_children {n : Node} (hkind : isIdentifier n.kind = false)
    (hnone : n.child? "declarator" = none) :
    declaredIdentifier? n = n.children.findSome? fun child =>
      if child.named then declaredIdentifier? child else none := by
  rw [declaredIdentifier?, if_neg (by rw [hkind]; exact Bool.false_ne_true)]
  split
  · next inner hinner => exact absurd (hinner.symm.trans hnone) (Option.some_ne_none inner)
  · conv_rhs => rw [← List.attach_map_subtype_val n.children, List.findSome?_map]
    rfl

theorem declaredName?_pack (type : Node) (stop : Nat) :
    declaredName? (pack type stop) = some (leaf "identifier" true (stop - 1) stop) := by
  change declaredIdentifier? (packDeclarator type.stop stop) = _
  have hname : declaredIdentifier? (leaf "identifier" true (stop - 1) stop) = some _ :=
    declaredIdentifier?_of_isIdentifier rfl
  rw [declaredIdentifier?_of_children rfl rfl]
  change List.findSome? _ [leaf "..." false type.stop (type.stop + 3),
    leaf "identifier" true (stop - 1) stop] = _
  rw [List.findSome?_cons_of_isNone rfl, List.findSome?_cons_of_isSome]
  · exact hname
  · exact hname ▸ rfl

theorem templateName?_pack : templateName? (pack (leaf "primitive_type" true 9 12) 17) =
    some (leaf "identifier" true 16 17) := by
  rw [templateName?, innermost_of_ne (by decide)]
  exact declaredName?_pack _ _

theorem wellPlaced_packTemplateList : WellPlaced packSource packTemplateList := by
  have hdeclarator : WellPlaced packSource (packDeclarator 12 17) :=
    wellPlaced_of_forall (by decide) ⟨wellPlaced_leaf (by decide), wellPlaced_leaf (by decide)⟩
  have hpack : WellPlaced packSource (pack (leaf "primitive_type" true 9 12) 17) :=
    wellPlaced_of_forall (by decide) ⟨wellPlaced_leaf (by decide), hdeclarator⟩
  exact wellPlaced_of_forall (by decide)
    ⟨wellPlaced_leaf (by decide), hpack, wellPlaced_leaf (by decide)⟩

theorem wellPlaced_packList : WellPlaced packSource packList := by
  have hdeclarator : WellPlaced packSource (packDeclarator 27 32) :=
    wellPlaced_of_forall (by decide) ⟨wellPlaced_leaf (by decide), wellPlaced_leaf (by decide)⟩
  have hpack : WellPlaced packSource (pack (leaf "type_identifier" true 26 27) 32) :=
    wellPlaced_of_forall (by decide) ⟨wellPlaced_leaf (by decide), hdeclarator⟩
  exact wellPlaced_of_forall (by decide)
    ⟨wellPlaced_leaf (by decide), hpack, wellPlaced_leaf (by decide)⟩

theorem names_pack : Names packSource (pack (leaf "type_identifier" true 26 27) 32)
    (leaf "identifier" true 31 32) where
  declared := declaredName?_pack _ _
  inFront value hvalue := absurd hvalue.symm (Option.some_ne_none value)
  spelled := ⟨[], 'n', rfl, by decide, by decide⟩

/-- It is not so that packs are recorded, in either list, though they have names. -/
theorem parameters_packs_lost :
    (¬ ∀ code list params, WellPlaced code list → templateParams code list = .ok params →
      (list.children.filterMap templateName?).mapM (nameOf code) = .ok (params.map (·.name))) ∧
    ¬ ∀ code list args, WellPlaced code list → arguments code list = .ok args → ∃ readings,
      List.Forall₂ (ReadAs code)
        (list.children.filter fun n => isParameter n.kind || isPack n.kind) readings ∧
      args = readings.filterMap id := by
  refine ⟨fun h => ?_, fun h => ?_⟩
  · have hread : templateParams packSource packTemplateList = .ok [] := by
      rw [templateParams, collect, bind_eq_ok]
      refine ⟨[none, none, none], (mapM_eq_ok_iff _ _ _).mpr ?_, rfl⟩
      refine .cons ?_ (.cons ?_ (.cons ?_ .nil))
      all_goals
        rw [templateParam?]
        rfl
    have hnames := h _ _ _ wellPlaced_packTemplateList hread
    rw [mapM_eq_ok_iff, List.map_nil, List.forall₂_nil_right_iff,
      List.filterMap_eq_nil_iff] at hnames
    have hlost := hnames _ (List.mem_cons_of_mem _ List.mem_cons_self)
    exact Option.some_ne_none _ (templateName?_pack.symm.trans hlost)
  · rcases h _ _ [] wellPlaced_packList rfl with ⟨readings, hreadings, hnone⟩
    cases hreadings with
    | cons hread _ =>
      cases hread with
      | named name arg _ _ => exact absurd hnone.symm (List.cons_ne_nil _ _)
      | unnamed arg hunnamed _ => exact hunnamed _ names_pack
      | void _ _ hunnamed _ _ _ => exact hunnamed _ names_pack

end Pack

end Extraction

end HeaderBinding
