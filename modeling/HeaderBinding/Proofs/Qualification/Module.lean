import HeaderBinding.Proofs.Qualification.Scopes
import HeaderBinding.Proofs.Qualification.Signatures

/-!
# Qualifying a Module

What becomes of the types in the signatures of a module.

Every class of the module is a scope, and every scope is applied to every class, its own first.
Since each scope is a pass and passes can be put together, all that happens to a type is one pass,
in which a word goes to the first scope that has an owner for it (`qualifyModule_types`). The first
scope is that of the class itself. So a class keeps the words it declares, and any other word goes
to the first class or template of another name that declares it.

After that pass nothing is left to qualify (`qualifyModule_settled`). An owner's name is put in as a
whole, with a scope mark behind each of its words, and so are the words of names that happen to be
declared somewhere else.

## Main definitions

* `moduleRecords`: The records that declare types, classes before templates.
* `ownerOf?`: The owner of a word in the signatures of a class.
* `qualifiedType`: A type after one pass.
* `ClassRecord.Settled`: No signature of a class has a word left to qualify.

## Theorems

* `findSome?_scopes`: The first scope with an owner for a word has its owner.
* `classes_eq_mapTypes`, `templates_eq_mapTypes`: Qualifying is applying a function to the types.
* `qualifyModule_types`: Every type is replaced by what one pass makes of it.
* `qualifyModule_settled`: Nothing is left to qualify, and nothing changes a second time.
-/

namespace HeaderBinding

open Text

/-- The records of a module that declare types, those of the classes before those of the
    templates. -/
def moduleRecords (classes : List ClassRecord) (templates : List ClassTemplate) :
    List ClassRecord :=
  classes ++ templates.map (·.record)

/-- The owner of a word in the signatures of a class: the class itself if it declares the word, or
    else the first record of another name that does. A template parameter has no owner. -/
def ownerOf? (records : List ClassRecord) (params : List String) (c : ClassRecord)
    (word : String) : Option String :=
  if word ∈ params then none
  else if c.Declares word then some c.name
  else (records.find? fun d => d.name ≠ c.name ∧ d.Declares word).map (·.name)

/-- A type in the signatures of a class after one pass. -/
def qualifiedType (records : List ClassRecord) (params : List String) (c : ClassRecord)
    (type : String) : String :=
  String.ofList (qualifyWords (ownerOf? records params c) [] type.toList)

/-- No signature of a class has a word left that the class or a record of another name declares,
    other than the template parameters. -/
def ClassRecord.Settled (records : List ClassRecord) (params : List String) (c : ClassRecord) :
    Prop :=
  ∀ type ∈ c.signatureTypes, ∀ word, word ∉ params →
    (c.Declares word ∨ ∃ d ∈ records, d.name ≠ c.name ∧ d.Declares word) →
      ¬ BareWord word.toList type.toList

-- Whether a class is settled depends on the scopes of the records only.
theorem ClassRecord.Settled.congr (records records' : List ClassRecord) (params : List String)
    (c : ClassRecord) (hsettled : c.Settled records params)
    (h : records.map InnerTypes.of = records'.map InnerTypes.of) : c.Settled records' params := by
  intro type htype word hparams hdeclared
  refine hsettled type htype word hparams (hdeclared.imp_right ?_)
  rintro ⟨d, hd, hname, hdeclares⟩
  have hmem := List.mem_map_of_mem (f := InnerTypes.of) hd
  rw [← h] at hmem
  rcases List.mem_map.mp hmem with ⟨e, he, heq⟩
  have hname' : e.name = d.name := congrArg InnerTypes.owner heq
  refine ⟨e, he, hname' ▸ hname, ?_⟩
  rw [← InnerTypes.mem_segments_of, heq, InnerTypes.mem_segments_of]
  exact hdeclares

section Scopes

variable (records : List ClassRecord) (params : List String) (c : ClassRecord)

/-- The scopes that are applied to a class, in their order. -/
def scopesFor : List InnerTypes :=
  InnerTypes.of c :: (records.map InnerTypes.of).filter (·.owner != c.name)

theorem owner?_of (d : ClassRecord) (word : String) :
    (InnerTypes.of d).owner? params word =
      if d.Declares word ∧ word ∉ params then some d.name else none := by
  simp only [InnerTypes.owner?, InnerTypes.mem_segments_of]
  rfl

/-- The first scope with an owner for a word has its owner. -/
theorem findSome?_scopes (word : String) :
    (scopesFor records c).findSome? (·.owner? params word) = ownerOf? records params c word := by
  have hothers : word ∉ params →
      ((records.map InnerTypes.of).filter (·.owner != c.name)).findSome? (·.owner? params word) =
        (records.find? fun d => d.name ≠ c.name ∧ d.Declares word).map (·.name) := by
    intro hparams
    induction records with
    | nil => rfl
    | cons d records ih =>
        rw [List.map_cons, List.filter_cons, List.find?_cons]
        by_cases hname : d.name = c.name
        · -- A record of the same name is no scope for the class.
          have hskip : ((InnerTypes.of d).owner != c.name) = false := by
            rw [bne_eq_false_iff_eq]
            exact hname
          have hnot : decide (d.name ≠ c.name ∧ d.Declares word) = false :=
            decide_eq_false fun h => h.1 hname
          rw [hskip, if_neg Bool.false_ne_true, hnot]
          exact ih
        · have htake : ((InnerTypes.of d).owner != c.name) = true := by
            rw [bne_iff_ne]
            exact hname
          rw [htake, if_pos rfl, List.findSome?_cons, owner?_of]
          -- The first that declares the word is found, and no other is asked.
          by_cases hdeclares : d.Declares word
          · rw [if_pos ⟨hdeclares, hparams⟩, decide_eq_true ⟨hname, hdeclares⟩]
            rfl
          · rw [if_neg (fun h => hdeclares h.1), decide_eq_false (fun h => hdeclares h.2)]
            exact ih
  have hnone : word ∈ params → ∀ scope : InnerTypes, scope.owner? params word = none :=
    fun hparams scope => if_neg fun h => h.2 hparams
  unfold ownerOf? scopesFor
  by_cases hparams : word ∈ params
  · rw [if_pos hparams, List.findSome?_eq_none_iff]
    exact fun scope _ => hnone hparams scope
  · -- The scope of the class itself is asked before all others.
    rw [if_neg hparams, List.findSome?_cons, owner?_of]
    by_cases hdeclares : c.Declares word
    · rw [if_pos ⟨hdeclares, hparams⟩, if_pos hdeclares]
    · rw [if_neg (fun h => hdeclares h.1), if_neg hdeclares]
      exact hothers hparams

theorem wellNamed_of_mem_scopesFor (hc : c.WellNamed) (hrecords : ∀ d ∈ records, d.WellNamed)
    (scope : InnerTypes) (hmem : scope ∈ scopesFor records c) : scope.WellNamed := by
  rcases List.mem_cons.mp hmem with rfl | hmem
  · exact InnerTypes.wellNamed_of c hc
  · rcases List.mem_map.mp (List.mem_filter.mp hmem).1 with ⟨d, hd, rfl⟩
    exact InnerTypes.wellNamed_of d (hrecords d hd)

/-- Scopes applied one after the other are one pass, in which the first owner of a word counts. -/
theorem toList_qualifyThrough (scopes : List InnerTypes) (h : ∀ scope ∈ scopes, scope.WellNamed)
    (type : String) :
    (qualifyThrough params scopes type).toList =
      qualifyWords (fun word => scopes.findSome? (·.owner? params word)) [] type.toList := by
  unfold qualifyThrough
  induction scopes generalizing type with
  | nil => exact (qualifyWords_none type.toList []).symm
  | cons scope scopes ih =>
      have hscope := h scope (List.mem_cons_self ..)
      have hor : (fun word => (scope.owner? params word).or
          (scopes.findSome? (·.owner? params word))) =
          fun word => (scope :: scopes).findSome? (·.owner? params word) := by
        funext word
        rw [List.findSome?_cons]
        cases scope.owner? params word with
        | none => rfl
        | some owner => rfl
      rw [List.foldl_cons, ih (fun other hother => h other (List.mem_cons_of_mem _ hother)),
        scope.toList_qualify params hscope,
        qualifyWords_qualifyWords _ _ (scope.scopedName_of_owner? params hscope) _ _ _
          (fun _ => rfl), hor]

theorem scopedName_of_ownerOf? (hc : c.WellNamed) (hrecords : ∀ d ∈ records, d.WellNamed)
    (word owner : String) (heq : ownerOf? records params c word = some owner) :
    ScopedName owner.toList := by
  rw [← findSome?_scopes] at heq
  rcases List.exists_of_findSome?_eq_some heq with ⟨scope, hmem, howner⟩
  exact scope.scopedName_of_owner? params
    (wellNamed_of_mem_scopesFor records c hc hrecords scope hmem) word owner howner

/-- Qualifying a class replaces every type in its signatures by what one pass makes of it. -/
theorem qualifyClass_types (hc : c.WellNamed) (hrecords : ∀ d ∈ records, d.WellNamed) :
    (qualifyClass (records.map InnerTypes.of) params c).1 =
      c.mapTypes (qualifiedType records params c) := by
  have htype : qualifyThrough params (scopesFor records c) = qualifiedType records params c := by
    funext type
    have hpass := toList_qualifyThrough params _
      (wellNamed_of_mem_scopesFor records c hc hrecords) type
    simp only [findSome?_scopes] at hpass
    rw [qualifiedType, ← hpass, String.ofList_toList]
  rw [qualifyClass_eq, foldl_apply_fst]
  exact congrArg c.mapTypes htype

/-- A second pass changes nothing. -/
theorem qualifyWords_qualifiedType (hc : c.WellNamed) (hrecords : ∀ d ∈ records, d.WellNamed)
    (type : String) :
    qualifyWords (ownerOf? records params c) [] (qualifiedType records params c type).toList =
      (qualifiedType records params c type).toList := by
  rw [qualifiedType, String.toList_ofList]
  exact qualifyWords_idempotent _ _ (scopedName_of_ownerOf? records params c hc hrecords)
    (fun _ h => h) _ _

/-- Qualifying a class a second time changes nothing and reports no change. -/
theorem qualifyClass_again (hc : c.WellNamed) (hrecords : ∀ d ∈ records, d.WellNamed) :
    qualifyClass (records.map InnerTypes.of) params
        (c.mapTypes (qualifiedType records params c)) =
      (c.mapTypes (qualifiedType records params c), 0) := by
  have hscopes : InnerTypes.of (c.mapTypes (qualifiedType records params c)) = InnerTypes.of c :=
    rfl
  rw [qualifyClass_eq, hscopes]
  refine foldl_apply_eq_self params (scopesFor records c) _ 0 fun scope hmem type htype => ?_
  rw [ClassRecord.signatureTypes_mapTypes] at htype
  rcases List.mem_map.mp htype with ⟨original, _, rfl⟩
  refine scope.qualify?_eq_none params
    (wellNamed_of_mem_scopesFor records c hc hrecords scope hmem) _ ?_
  -- A word without an owner has none in this scope.
  have hless : ∀ word, ownerOf? records params c word = none → scope.owner? params word = none := by
    intro word hnone
    rw [← findSome?_scopes, List.findSome?_eq_none_iff] at hnone
    exact hnone scope hmem
  rw [qualifiedType, String.toList_ofList]
  exact qualifyWords_idempotent _ _ (scopedName_of_ownerOf? records params c hc hrecords) hless _ _

/-- Qualifying a class leaves nothing to qualify. -/
theorem settled_mapTypes (hc : c.WellNamed) (hrecords : ∀ d ∈ records, d.WellNamed) :
    (c.mapTypes (qualifiedType records params c)).Settled records params := by
  intro type htype word hparams hdeclared hbare
  rw [ClassRecord.signatureTypes_mapTypes] at htype
  rcases List.mem_map.mp htype with ⟨original, _, rfl⟩
  have hnone := owner_eq_none_of_bareWord _ word.toList _
    (qualifyWords_qualifiedType records params c hc hrecords original) hbare
  rw [String.ofList_toList, ownerOf?, if_neg hparams] at hnone
  -- A bare word has no owner, but whoever declares the word would be one.
  rcases hdeclared with hown | ⟨d, hd, hname, hdeclares⟩
  · have hown' : c.Declares word := hown
    rw [if_pos hown'] at hnone
    exact absurd hnone (Option.some_ne_none _)
  · by_cases hown : c.Declares word
    · rw [if_pos hown] at hnone
      exact absurd hnone (Option.some_ne_none _)
    · rw [if_neg hown, Option.map_eq_none_iff, List.find?_eq_none] at hnone
      exact hnone d hd (decide_eq_true ⟨hname, hdeclares⟩)

end Scopes

section Module

variable (classes : List ClassRecord) (templates : List ClassTemplate)

theorem moduleScopes_eq :
    moduleScopes classes templates = (moduleRecords classes templates).map InnerTypes.of := by
  rw [moduleScopes, moduleRecords, List.map_append, List.map_map]
  rfl

theorem qualifyTemplate_fst (scopes : List InnerTypes) (t : ClassTemplate) :
    (qualifyTemplate scopes t).1 =
      { t with record := (qualifyClass scopes t.paramNames t.record).1 } :=
  rfl

theorem classes_eq_mapTypes :
    (qualifyModule classes templates).classes = classes.map fun c =>
      c.mapTypes (qualifyThrough [] (scopesFor (moduleRecords classes templates) c)) := by
  simp only [qualifyModule, List.map_map, moduleScopes_eq]
  exact List.map_congr_left fun c _ => foldl_apply_fst [] _ c 0

theorem templates_eq_mapTypes :
    (qualifyModule classes templates).templates = templates.map fun t =>
      { t with
        record := t.record.mapTypes
          (qualifyThrough t.paramNames (scopesFor (moduleRecords classes templates) t.record)) } := by
  simp only [qualifyModule, List.map_map, moduleScopes_eq]
  refine List.map_congr_left fun t _ => ?_
  rw [Function.comp_apply, qualifyTemplate_fst, qualifyClass_eq, foldl_apply_fst]
  rfl

-- Whatever the names are like, nothing but types in signatures changes.
theorem exists_qualifyModule_eq :
    ∃ f : List String → ClassRecord → String → String,
      (qualifyModule classes templates).classes = classes.map (fun c => c.mapTypes (f [] c)) ∧
      (qualifyModule classes templates).templates =
        templates.map fun t =>
          { t with record := t.record.mapTypes (f t.paramNames t.record) } :=
  ⟨fun params c => qualifyThrough params (scopesFor (moduleRecords classes templates) c),
    classes_eq_mapTypes classes templates, templates_eq_mapTypes classes templates⟩

/-- Qualifying a module keeps its scopes. -/
theorem moduleScopes_qualifyModule :
    moduleScopes (qualifyModule classes templates).classes
      (qualifyModule classes templates).templates = moduleScopes classes templates := by
  rcases exists_qualifyModule_eq classes templates with ⟨f, hclasses, htemplates⟩
  rw [hclasses, htemplates, moduleScopes, moduleScopes, List.map_map, List.map_map]
  rfl

section Named

variable (hnamed : ∀ c ∈ moduleRecords classes templates, c.WellNamed)
include hnamed

theorem wellNamed_of_mem_classes (c : ClassRecord) (hc : c ∈ classes) : c.WellNamed :=
  hnamed c (List.mem_append.mpr (Or.inl hc))

theorem wellNamed_of_mem_templates (t : ClassTemplate) (ht : t ∈ templates) :
    t.record.WellNamed :=
  hnamed t.record (List.mem_append.mpr (Or.inr (List.mem_map_of_mem ht)))

theorem classes_qualifyModule :
    (qualifyModule classes templates).classes =
      classes.map fun c => c.mapTypes (qualifiedType (moduleRecords classes templates) [] c) := by
  simp only [qualifyModule, List.map_map, moduleScopes_eq]
  refine List.map_congr_left fun c hc => ?_
  exact qualifyClass_types _ [] c (wellNamed_of_mem_classes classes templates hnamed c hc) hnamed

theorem templates_qualifyModule :
    (qualifyModule classes templates).templates = templates.map fun t =>
      { t with
        record := t.record.mapTypes
          (qualifiedType (moduleRecords classes templates) t.paramNames t.record) } := by
  simp only [qualifyModule, List.map_map, moduleScopes_eq]
  refine List.map_congr_left fun t ht => ?_
  have ht' := wellNamed_of_mem_templates classes templates hnamed t ht
  rw [Function.comp_apply, qualifyTemplate_fst, qualifyClass_types _ _ _ ht' hnamed]

/-- Qualifying a module a second time changes nothing. -/
theorem qualifyModule_again :
    qualifyModule (qualifyModule classes templates).classes
        (qualifyModule classes templates).templates =
      { qualifyModule classes templates with changed := 0 } := by
  -- Both lists come out as they went in, each record with a count of zero.
  have hclasses : (qualifyModule classes templates).classes.map
      (qualifyClass (moduleScopes classes templates) []) =
        (qualifyModule classes templates).classes.map fun c => (c, 0) := by
    refine List.map_congr_left fun c hc => ?_
    rw [classes_qualifyModule classes templates hnamed] at hc
    rcases List.mem_map.mp hc with ⟨d, hd, rfl⟩
    rw [moduleScopes_eq]
    exact qualifyClass_again _ [] d (wellNamed_of_mem_classes classes templates hnamed d hd) hnamed
  have htemplates : (qualifyModule classes templates).templates.map
      (qualifyTemplate (moduleScopes classes templates)) =
        (qualifyModule classes templates).templates.map fun t => (t, 0) := by
    refine List.map_congr_left fun t ht => ?_
    rw [templates_qualifyModule classes templates hnamed] at ht
    rcases List.mem_map.mp ht with ⟨d, hd, rfl⟩
    have hagain := qualifyClass_again (moduleRecords classes templates) d.paramNames d.record
      (wellNamed_of_mem_templates classes templates hnamed d hd) hnamed
    rw [← moduleScopes_eq] at hagain
    unfold qualifyTemplate
    exact congrArg
      (fun counted : ClassRecord × Nat => ({ d with record := counted.1 }, counted.2)) hagain
  have hzero : ∀ n m : Nat,
      (List.replicate n 0 ++ List.replicate m 0).foldr (· + ·) 0 = 0 := by
    intro n m
    change (List.replicate n 0 ++ List.replicate m 0).sum = 0
    rw [List.replicate_append_replicate, List.sum_replicate_nat, Nat.mul_zero]
  rw [qualifyModule, moduleScopes_qualifyModule, hclasses, htemplates]
  simp only [List.map_map, Function.comp_def, List.map_id', List.map_const', hzero]

end Named

end Module

/-- Two classes whose names are declared in each other. The second declares `Base` twice. -/
def crossedClasses : List ClassRecord :=
  [{ name := "Geom::Base"
     enums := [{ name := "Kind" }]
     constructors := [{ args := [{ type := some "const Kind& (Base, Geom::Kind)" }] }] },
   { name := "Kind"
     enums := [{ name := "Base" }, { name := "Other::Base" }]
     constructors := [{ args := [{ type := some "Kind<Base> Base::Kind" }] }] }]

/-- A template with a parameter that hides a name. -/
def hidingTemplates : List ClassTemplate :=
  [{ record := { name := "Box", constructors := [{ args := [{ type := some "Kind Base" }] }] }
     typeParams := [.ofType "Kind"] }]

theorem wellNamed_crossed : ∀ c ∈ moduleRecords crossedClasses hidingTemplates, c.WellNamed := by
  intro c hc
  simp only [moduleRecords, crossedClasses, hidingTemplates, List.map_cons, List.map_nil,
    List.cons_append, List.nil_append, List.mem_cons, List.not_mem_nil, or_false] at hc
  rcases hc with rfl | rfl | rfl
  · exact ⟨⟨["Geom".toList, "Base".toList], by decide, by decide, by decide⟩, by decide⟩
  · exact ⟨⟨["Kind".toList], by decide, by decide, by decide⟩, by decide⟩
  · exact ⟨⟨["Box".toList], by decide, by decide, by decide⟩, by decide⟩

/-- Every type in the signatures of a module is replaced by what one pass over it makes of it, and
    nothing else changes. -/
theorem qualifyModule_types (classes : List ClassRecord) (templates : List ClassTemplate)
    (hnamed : ∀ c ∈ moduleRecords classes templates, c.WellNamed) :
    (qualifyModule classes templates).classes =
        classes.map (fun c =>
          c.mapTypes (qualifiedType (moduleRecords classes templates) [] c)) ∧
      (qualifyModule classes templates).templates = templates.map fun t =>
        { t with
          record := t.record.mapTypes
            (qualifiedType (moduleRecords classes templates) t.paramNames t.record) } :=
  ⟨classes_qualifyModule classes templates hnamed,
    templates_qualifyModule classes templates hnamed⟩

theorem qualifyModule_types_crossed :
    (∀ c ∈ moduleRecords crossedClasses hidingTemplates, c.WellNamed) ∧
      (qualifyModule crossedClasses hidingTemplates).classes.map (·.signatureTypes) =
        [["const Geom::Base::Kind& (Kind::Base, Geom::Kind)"],
          ["Geom::Base::Kind<Kind::Base> Base::Kind"]] ∧
      (qualifyModule crossedClasses hidingTemplates).templates.map (·.record.signatureTypes) =
        [["Kind Kind::Base"]] := by
  have htypes := qualifyModule_types crossedClasses hidingTemplates wellNamed_crossed
  refine ⟨wellNamed_crossed, ?_, ?_⟩
  · rw [htypes.1]
    decide +kernel
  · rw [htypes.2]
    decide +kernel

/-- Qualifying a module leaves nothing to qualify in any signature, keeps the scopes, and changes
    nothing a second time. -/
theorem qualifyModule_settled (classes : List ClassRecord) (templates : List ClassTemplate)
    (hnamed : ∀ c ∈ moduleRecords classes templates, c.WellNamed) :
    let qualified := qualifyModule classes templates
    let records := moduleRecords qualified.classes qualified.templates
    (∀ c ∈ qualified.classes, c.Settled records []) ∧
      (∀ t ∈ qualified.templates, t.record.Settled records t.paramNames) ∧
      records.map InnerTypes.of = (moduleRecords classes templates).map InnerTypes.of ∧
      qualifyModule qualified.classes qualified.templates = { qualified with changed := 0 } := by
  have hclasses := classes_qualifyModule classes templates hnamed
  have htemplates := templates_qualifyModule classes templates hnamed
  have hscopes := moduleScopes_qualifyModule classes templates
  have hrecords := hscopes
  rw [moduleScopes_eq, moduleScopes_eq] at hrecords
  refine ⟨fun c hc => ?_, fun t ht => ?_, hrecords, qualifyModule_again classes templates hnamed⟩
  · rw [hclasses] at hc
    rcases List.mem_map.mp hc with ⟨d, hd, rfl⟩
    have hd' := wellNamed_of_mem_classes classes templates hnamed d hd
    exact (settled_mapTypes _ [] d hd' hnamed).congr _ _ _ _ hrecords.symm
  · rw [htemplates] at ht
    rcases List.mem_map.mp ht with ⟨d, hd, rfl⟩
    have hd' := wellNamed_of_mem_templates classes templates hnamed d hd
    exact (settled_mapTypes _ d.paramNames d.record hd' hnamed).congr _ _ _ _ hrecords.symm

theorem qualifyModule_settled_crossed :
    (∀ c ∈ moduleRecords crossedClasses hidingTemplates, c.WellNamed) ∧
      (qualifyModule crossedClasses hidingTemplates).changed = 5 ∧
      (qualifyModule (qualifyModule crossedClasses hidingTemplates).classes
        (qualifyModule crossedClasses hidingTemplates).templates).changed = 0 := by
  have hsettled := qualifyModule_settled crossedClasses hidingTemplates wellNamed_crossed
  refine ⟨wellNamed_crossed, by decide +kernel, ?_⟩
  rw [hsettled.2.2.2]

end HeaderBinding
