import HeaderBinding.Proofs.Qualification.Insertions

/-!
# Counting Changed Types

What the number is that comes with a qualified module.

Every scope counts the types it changes, and the counts are added up. So a type that holds names of
two scopes is counted twice, once for either (`qualifyModule_changed_twice`). What is counted are
changes and not types that differ in the end.

How the two numbers are related rests on one fact. Owners are only ever put in, so a type that has
been changed stays changed, whatever comes after. A type differs in the end if and only if some
scope has changed it (`changingScopes_eq_nil_iff`). The number of changes is therefore at least the
number of types that differ, and they are the same exactly when no type is changed by more than one
scope (`qualifyModule_changed`).

## Main definitions

* `changingScopes`: The scopes that change a type.
* `ScopedType`: A type with the scopes that are applied to it.
* `moduleTypes`: The types in the signatures of a module.
* `differingTypes`: The number of types in signatures that differ between two lists of records.

## Theorems

* `InnerTypes.isSome_qualify?_iff`: A change is reported exactly where there is one.
* `changingScopes_eq_nil_iff`: A type that some scope changes differs in the end.
* `foldl_apply_snd`: The count of a class is the number of changes.
* `qualifyModule_changed`: What is counted in a module.
* `qualifyModule_changed_twice`: A type that is counted twice.
-/

namespace HeaderBinding

namespace InnerTypes

/-- What the searches for the names of a scope report of a type: nothing as long as it is the
    original, and the type as it stands once it is longer. -/
def Reports (original : String) (type : Option String × String) : Prop :=
  type = (none, original) ∨ (type.1 = some type.2 ∧ original.length < type.2.length)

variable (s : InnerTypes) (params : List String)

theorem reports_qualifySegment (original : String) (type : Option String × String)
    (h : Reports original type) (segment : String) :
    Reports original (s.qualifySegment type segment) := by
  have hput := s.ownersPut_qualifySegment (List.mem_singleton_self s.owner) type segment
  have hgrown := hput.eq_or_length_lt
  unfold qualifySegment qualifyWord at hgrown ⊢
  by_cases hsame : qualifyFrom segment.toList (s.owner.toList ++ Text.scopeMark) 0 []
      type.2.toList = type.2.toList
  · simp only [if_pos hsame]
    exact h
  · simp only [if_neg hsame] at hgrown ⊢
    -- Another text has been found, and another text is a longer one.
    have hother : type.2 ≠ String.ofList (qualifyFrom segment.toList
        (s.owner.toList ++ Text.scopeMark) 0 [] type.2.toList) := by
      intro heq
      have hchars := congrArg String.toList heq
      rw [String.toList_ofList] at hchars
      exact hsame hchars.symm
    have hlonger := hgrown.resolve_left hother
    have hbefore : original.length ≤ type.2.length := by
      rcases h with rfl | ⟨_, hlt⟩
      · exact Nat.le_refl _
      · exact Nat.le_of_lt hlt
    exact Or.inr ⟨rfl, Nat.lt_of_le_of_lt hbefore hlonger⟩

theorem reports_foldl_qualifySegment (original : String) (segments : List String)
    (type : Option String × String) (h : Reports original type) :
    Reports original (segments.foldl s.qualifySegment type) := by
  induction segments generalizing type with
  | nil => exact h
  | cons segment segments ih => exact ih _ (s.reports_qualifySegment original type h segment)

/-- A change is reported exactly where there is one. -/
theorem isSome_qualify?_iff (type : String) :
    (s.qualify? params type).isSome = true ↔ s.qualify params type ≠ type := by
  have hreports := s.reports_foldl_qualifySegment type (s.segments.filter (!params.contains ·))
    (none, type) (Or.inl rfl)
  unfold qualify qualify?
  rcases hreports with hnone | ⟨hsome, hlonger⟩
  · rw [hnone]
    simp only [Option.isSome_none, Bool.false_eq_true, Option.getD_none, ne_eq, not_true]
  · -- What is reported is longer than the type, so it is not the type.
    rw [hsome]
    simp only [Option.isSome_some, Option.getD_some, ne_eq, true_iff]
    intro heq
    rw [heq] at hlonger
    exact Nat.lt_irrefl _ hlonger

end InnerTypes

/-- If every element of a list stands for some others, there are at least as many of these as
    elements that stand for any, and just as many if none stands for several. -/
theorem countP_pos_le_length_flatMap {α β : Type} (f : α → List β) (xs : List α) :
    (xs.countP fun x => 0 < (f x).length) ≤ (xs.flatMap f).length ∧
      ((xs.countP fun x => 0 < (f x).length) = (xs.flatMap f).length ↔
        ∀ x ∈ xs, (f x).length ≤ 1) := by
  induction xs with
  | nil => exact ⟨Nat.le_refl _, iff_of_true rfl fun _ h => absurd h List.not_mem_nil⟩
  | cons x xs ih =>
      rw [List.countP_cons, List.flatMap_cons, List.length_append, List.forall_mem_cons, ← ih.2]
      have hle := ih.1
      by_cases hx : 0 < (f x).length
      · rw [decide_eq_true hx, if_pos rfl]
        omega
      · rw [decide_eq_false hx, if_neg Bool.false_ne_true]
        omega

section Changes

variable (params : List String)

/-- The scopes that change a type when they are applied one after the other, each to what those
    before it have left. -/
def changingScopes : List InnerTypes → String → List InnerTypes
  | [], _ => []
  | s :: scopes, type =>
    if s.qualify params type = type then changingScopes scopes type
    else s :: changingScopes scopes (s.qualify params type)

theorem length_changingScopes_cons (s : InnerTypes) (scopes : List InnerTypes) (type : String) :
    (changingScopes params (s :: scopes) type).length =
      (s.qualify? params type).isSome.toNat +
        (changingScopes params scopes (s.qualify params type)).length := by
  rw [changingScopes]
  by_cases hsame : s.qualify params type = type
  · have hnone : (s.qualify? params type).isSome = false := by
      rw [← Bool.not_eq_true, s.isSome_qualify?_iff params type]
      exact not_not_intro hsame
    rw [if_pos hsame, hnone, hsame, Bool.toNat_false, Nat.zero_add]
  · rw [if_neg hsame, (s.isSome_qualify?_iff params type).mpr hsame, List.length_cons,
      Bool.toNat_true, Nat.add_comm]

/-- A type that some scope changes differs in the end, for nothing that is put in is taken out. -/
theorem changingScopes_eq_nil_iff (scopes : List InnerTypes) (type : String) :
    changingScopes params scopes type = [] ↔ qualifyThrough params scopes type = type := by
  induction scopes generalizing type with
  | nil => exact iff_of_true rfl rfl
  | cons s scopes ih =>
      have hcons : qualifyThrough params (s :: scopes) type =
          qualifyThrough params scopes (s.qualify params type) := rfl
      rw [hcons, changingScopes]
      by_cases hsame : s.qualify params type = type
      · rw [if_pos hsame, hsame]
        exact ih type
      · rw [if_neg hsame]
        -- The scope has made the type longer, and no other makes it shorter again.
        refine iff_of_false (List.cons_ne_nil _ _) fun hback => ?_
        have hfirst := (s.ownersPut_qualify (List.mem_singleton_self s.owner) params
          type).eq_or_length_lt.resolve_left fun heq => hsame heq.symm
        have hlater := (qualifyThrough_ownersPut params scopes
          (fun other hother => List.mem_map_of_mem (f := InnerTypes.owner) hother)
          (s.qualify params type)).eq_or_length_lt
        rw [hback] at hlater
        rcases hlater with heq | hlt
        · exact hsame heq
        · exact Nat.lt_asymm hfirst hlt

theorem length_flatMap_changingScopes (s : InnerTypes) (scopes : List InnerTypes)
    (types : List String) :
    (types.flatMap (changingScopes params (s :: scopes))).length =
      types.countP (fun type => (s.qualify? params type).isSome) +
        ((types.map (s.qualify params)).flatMap (changingScopes params scopes)).length := by
  induction types with
  | nil => rfl
  | cons type types ih =>
      rw [List.flatMap_cons, List.length_append, length_changingScopes_cons, ih, List.map_cons,
        List.flatMap_cons, List.length_append, List.countP_cons]
      cases (s.qualify? params type).isSome with
      | true =>
          rw [Bool.toNat_true, if_pos rfl]
          omega
      | false =>
          rw [Bool.toNat_false, if_neg Bool.false_ne_true]
          omega

/-- The count of a class after scopes have been applied to it is the number of changes they have
    made to its types. -/
theorem foldl_apply_snd (scopes : List InnerTypes) (c : ClassRecord) (changed : Nat) :
    (scopes.foldl (applyStep params) (c, changed)).2 =
      changed + (c.signatureTypes.flatMap (changingScopes params scopes)).length := by
  induction scopes generalizing c changed with
  | nil =>
      have hnil : c.signatureTypes.flatMap (changingScopes params []) = [] :=
        List.flatMap_eq_nil_iff.mpr fun _ _ => rfl
      rw [hnil]
      rfl
  | cons s scopes ih =>
      -- The first scope counts what it changes, and the others see what it has left.
      have hrecord : (s.apply params c).1 = c.mapTypes (s.qualify params) := rfl
      have hcount : (s.apply params c).2 =
          c.signatureTypes.countP fun type => (s.qualify? params type).isSome := rfl
      rw [List.foldl_cons, applyStep, ih, hrecord, hcount, ClassRecord.signatureTypes_mapTypes,
        length_flatMap_changingScopes, Nat.add_assoc]

end Changes

/-- A type in a signature with the template parameters that hide names in it and the scopes that
    are applied to it. -/
structure ScopedType where
  params : List String
  scopes : List InnerTypes
  type : String

namespace ScopedType

/-- The type when all scopes have been applied. -/
def qualified (t : ScopedType) : String :=
  qualifyThrough t.params t.scopes t.type

/-- The scopes that have changed it by then. -/
def changes (t : ScopedType) : List InnerTypes :=
  changingScopes t.params t.scopes t.type

theorem type_bne_qualified (t : ScopedType) :
    (t.type != t.qualified) = decide (0 < t.changes.length) := by
  rw [Bool.eq_iff_iff, bne_iff_ne, decide_eq_true_iff, List.length_pos_iff, changes, ne_eq, ne_eq,
    changingScopes_eq_nil_iff, eq_comm]
  rfl

end ScopedType

/-- The types in the signatures of a class with the scopes of a module. -/
def ClassRecord.scopedTypes (c : ClassRecord) (records : List ClassRecord) (params : List String) :
    List ScopedType :=
  c.signatureTypes.map fun type => { params, scopes := scopesFor records c, type }

/-- The types in the signatures of a module, those of the classes before those of the templates. -/
def moduleTypes (classes : List ClassRecord) (templates : List ClassTemplate) : List ScopedType :=
  let records := moduleRecords classes templates
  classes.flatMap (·.scopedTypes records []) ++
    templates.flatMap fun t => t.record.scopedTypes records t.paramNames

/-- The number of types in signatures that differ between two lists of records, where each type has
    one at the same place of the other list. -/
def differingTypes (before after : List ClassRecord) : Nat :=
  ((before.flatMap (·.signatureTypes)).zip (after.flatMap (·.signatureTypes))).countP
    fun types => types.1 != types.2

section Module

variable (classes : List ClassRecord) (templates : List ClassTemplate)

theorem moduleTypes_map_type :
    (moduleTypes classes templates).map (·.type) =
      (moduleRecords classes templates).flatMap (·.signatureTypes) := by
  simp only [moduleTypes, moduleRecords, ClassRecord.scopedTypes, List.map_append,
    List.map_flatMap, List.flatMap_append, List.flatMap_map, List.map_map, Function.comp_def,
    List.map_id']

theorem moduleTypes_map_qualified :
    (moduleTypes classes templates).map (·.qualified) =
      (moduleRecords (qualifyModule classes templates).classes
        (qualifyModule classes templates).templates).flatMap (·.signatureTypes) := by
  rw [classes_eq_mapTypes, templates_eq_mapTypes]
  simp only [moduleTypes, moduleRecords, ClassRecord.scopedTypes, List.map_append,
    List.map_flatMap, List.flatMap_append, List.flatMap_map, List.map_map, Function.comp_def,
    ClassRecord.signatureTypes_mapTypes]
  rfl

/-- The types that differ are those that some scope has changed. -/
theorem differingTypes_qualifyModule :
    differingTypes (moduleRecords classes templates)
        (moduleRecords (qualifyModule classes templates).classes
          (qualifyModule classes templates).templates) =
      (moduleTypes classes templates).countP fun t => 0 < t.changes.length := by
  rw [differingTypes, ← moduleTypes_map_type, ← moduleTypes_map_qualified, List.zip_map',
    List.countP_map]
  exact List.countP_congr fun t _ => by rw [Function.comp_apply, t.type_bne_qualified]

/-- What is counted are the changes of all types. -/
theorem changed_eq_changes :
    (qualifyModule classes templates).changed =
      ((moduleTypes classes templates).flatMap (·.changes)).length := by
  have hcount : ∀ params (c : ClassRecord),
      (qualifyClass (moduleScopes classes templates) params c).2 =
        ((c.scopedTypes (moduleRecords classes templates) params).flatMap (·.changes)).length := by
    intro params c
    rw [qualifyClass_eq, foldl_apply_snd, Nat.zero_add, moduleScopes_eq, ClassRecord.scopedTypes,
      List.flatMap_map]
    rfl
  have hclasses : (classes.map (qualifyClass (moduleScopes classes templates) [])).map (·.2) =
      classes.map fun c =>
        ((c.scopedTypes (moduleRecords classes templates) []).flatMap (·.changes)).length := by
    rw [List.map_map]
    exact List.map_congr_left fun c _ => hcount [] c
  have htemplates : (templates.map (qualifyTemplate (moduleScopes classes templates))).map (·.2) =
      templates.map fun t =>
        ((t.record.scopedTypes (moduleRecords classes templates) t.paramNames).flatMap
          (·.changes)).length := by
    rw [List.map_map]
    exact List.map_congr_left fun t _ => hcount t.paramNames t.record
  simp only [qualifyModule, hclasses, htemplates]
  change List.sum _ = _
  rw [List.sum_append, moduleTypes, List.flatMap_append, List.length_append, List.flatMap_assoc,
    List.flatMap_assoc, List.length_flatMap, List.length_flatMap]

end Module

/-- The number that comes with a qualified module is the number of changes that scopes make to
    types. Every type has one in its place in the qualified module, and the types that differ from
    it are those with a change. So there are no more of them than changes, and as many exactly when
    no type is changed by two scopes. -/
theorem qualifyModule_changed (classes : List ClassRecord) (templates : List ClassTemplate) :
    let types := moduleTypes classes templates
    let qualified := qualifyModule classes templates
    let before := moduleRecords classes templates
    let after := moduleRecords qualified.classes qualified.templates
    before.flatMap (·.signatureTypes) = types.map (·.type) ∧
      after.flatMap (·.signatureTypes) = types.map (·.qualified) ∧
      qualified.changed = (types.flatMap (·.changes)).length ∧
      differingTypes before after = (types.countP fun t => 0 < t.changes.length) ∧
      differingTypes before after ≤ qualified.changed ∧
      (differingTypes before after = qualified.changed ↔ ∀ t ∈ types, t.changes.length ≤ 1) := by
  intro types qualified before after
  have hchanged : qualified.changed = (types.flatMap (·.changes)).length :=
    changed_eq_changes classes templates
  have hdiffering : differingTypes before after = (types.countP fun t => 0 < t.changes.length) :=
    differingTypes_qualifyModule classes templates
  refine ⟨(moduleTypes_map_type classes templates).symm,
    (moduleTypes_map_qualified classes templates).symm, hchanged, hdiffering, ?_⟩
  rw [hchanged, hdiffering]
  exact countP_pos_le_length_flatMap (·.changes) types

/-- A class that mentions names of two other classes in one type. -/
def pairClasses : List ClassRecord :=
  [{ name := "Pen", enums := [{ name := "Color" }] },
   { name := "Shape", enums := [{ name := "Kind" }] },
   { name := "Canvas"
     constructors :=
      [{ name := "Canvas", args := [{ name := "p", type := some "Pair<Color, Kind>" }] }] }]

/-- There is one such type, and it is counted twice. -/
theorem qualifyModule_changed_twice :
    (qualifyModule pairClasses []).changed = 2 ∧
      differingTypes pairClasses (qualifyModule pairClasses []).classes = 1 ∧
      (qualifyModule pairClasses []).classes.map (·.signatureTypes) =
        [[], [], ["Pair<Pen::Color, Shape::Kind>"]] := by
  decide +kernel

end HeaderBinding
