import HeaderBinding.Proofs.Assembly.BindingModule
import HeaderBinding.Proofs.Dict

/-!
# The Order of the Headers

Headers come in whatever order a directory lists them in, and a module should not depend on it.

It does so in two ways. Where a name is declared twice, the policy makes the later declaration count
for more. And where classes of different names declare types of one name, the first of them owns the
word in the signatures of all other classes. With both excluded the order shows in nothing but the
order in which things are listed (`ofHeaders_perm`).

The two runs have little in common on the way. Levels are the same as sets and not as lists, and the
scopes of foreign classes are applied to a signature in another order. What they agree on is the
relation between the names of bases and derived classes, and the owner of every word. The one
decides which classes cannot be ordered, and the other what becomes of a type.

## Main definitions

* `headerRecords`: The records that the headers declare types in.
* `UniqueOwners`: A word is declared by records of one name only.
* `BindingModule.Equivalent`: Two modules hold the same.
* `SameOutcome`: Two attempts at one module end alike.

## Theorems

* `ownerOf?_of_perm`: With unique owners the order of the records does not matter.
* `qualifyModule_perm`: Nor does it matter to qualifying a module.
* `BindingModule.equivalent_assembled`: Modules of the same headers hold the same.
* `BindingModule.ofHeaders_perm`: The order of the headers does not matter.
-/

namespace HeaderBinding

/-- The records that the headers declare types in. -/
def headerRecords (headers : List Header) : List ClassRecord :=
  moduleRecords (headers.flatMap (·.classes)) (headers.flatMap (·.classTemplates))

/-- A word is declared by records of one name only. -/
def UniqueOwners (records : List ClassRecord) : Prop :=
  ∀ c ∈ records, ∀ d ∈ records, ∀ word, c.Declares word → d.Declares word → c.name = d.name

-- Only the words that a record declares need to be looked at.
instance decidableUniqueOwners (records : List ClassRecord) : Decidable (UniqueOwners records) :=
  decidable_of_iff
    (∀ c ∈ records, ∀ d ∈ records, ∀ word ∈ (InnerTypes.of c).segments,
      d.Declares word → c.name = d.name)
    (by simp only [UniqueOwners, InnerTypes.mem_segments_of])

/-- Two modules hold the same declarations, in whatever order they list them. -/
structure BindingModule.Equivalent (m other : BindingModule) : Prop where
  classes : m.classes.Perm other.classes
  classTemplates : m.classTemplates.Perm other.classTemplates
  typedefs : m.typedefs.Perm other.typedefs
  class? : ∀ name, m.class? name = other.class? name
  classTemplate? : ∀ name, m.classTemplate? name = other.classTemplate? name
  typedef? : ∀ name, m.typedef? name = other.typedef? name
  enums : m.enums.Perm other.enums
  functions : m.functions.Perm other.functions
  operators : m.operators.Perm other.operators
  dependencies : m.dependencies = other.dependencies
  dependencyHeaders : m.dependencyHeaders = other.dependencyHeaders

/-- Two attempts at a module end alike: in modules that hold the same, or over circles of the same
    classes. -/
inductive SameOutcome (name : String) :
    Except ModuleError BindingModule → Except ModuleError BindingModule → Prop where
  | ok (m other : BindingModule) (h : m.Equivalent other) : SameOutcome name (.ok m) (.ok other)
  | cycle (stuck other : List String) (h : ∀ c, c ∈ stuck ↔ c ∈ other) :
    SameOutcome name (.error (.cycle name stuck)) (.error (.cycle name other))

section Records

theorem UniqueOwners.of_perm (records other : List ClassRecord) (hunique : UniqueOwners records)
    (h : records.Perm other) : UniqueOwners other := fun c hc d hd =>
  hunique c (h.mem_iff.mpr hc) d (h.mem_iff.mpr hd)

theorem moduleRecords_perm (classes classes' : List ClassRecord)
    (templates templates' : List ClassTemplate) (hclasses : classes.Perm classes')
    (htemplates : templates.Perm templates') :
    (moduleRecords classes templates).Perm (moduleRecords classes' templates') :=
  hclasses.append (htemplates.map (·.record))

/-- If a word is declared by records of one name only, then the order of the records does not
    matter. -/
theorem ownerOf?_of_perm (records other : List ClassRecord) (h : records.Perm other)
    (hunique : UniqueOwners records) (params : List String) (c : ClassRecord) :
    ownerOf? records params c = ownerOf? other params c := by
  funext word
  have hfind : (records.find? fun d => d.name ≠ c.name ∧ d.Declares word).map (·.name) =
      (other.find? fun d => d.name ≠ c.name ∧ d.Declares word).map (·.name) := by
    cases hfirst : records.find? fun d => d.name ≠ c.name ∧ d.Declares word with
    | none =>
        -- No record declares the word, in whatever order they are asked.
        rw [List.find?_eq_none] at hfirst
        have hother := List.find?_eq_none.mpr fun d hd => hfirst d (h.mem_iff.mpr hd)
        rw [hother]
    | some d =>
        have hd := List.find?_some hfirst
        have hmem := List.mem_of_find?_eq_some hfirst
        cases hsecond : other.find? fun d => d.name ≠ c.name ∧ d.Declares word with
        | none =>
            rw [List.find?_eq_none] at hsecond
            exact absurd hd (hsecond d (h.mem_iff.mp hmem))
        | some e =>
            -- Two records may be found, but only one name.
            have he := List.find?_some hsecond
            have hmem' := h.mem_iff.mpr (List.mem_of_find?_eq_some hsecond)
            rw [decide_eq_true_eq] at hd he
            exact congrArg some (hunique d hmem e hmem' word hd.2 he.2)
  unfold ownerOf?
  rw [hfind]

theorem qualifiedType_of_perm (records other : List ClassRecord) (h : records.Perm other)
    (hunique : UniqueOwners records) (params : List String) (c : ClassRecord) :
    qualifiedType records params c = qualifiedType other params c := by
  funext type
  rw [qualifiedType, qualifiedType, ownerOf?_of_perm records other h hunique]

/-- The order in which the classes and templates of a module are listed does not matter to what
    becomes of each of them. -/
theorem qualifyModule_perm (classes classes' : List ClassRecord)
    (templates templates' : List ClassTemplate) (hclasses : classes.Perm classes')
    (htemplates : templates.Perm templates')
    (hnamed : ∀ c ∈ moduleRecords classes templates, c.WellNamed)
    (hunique : UniqueOwners (moduleRecords classes templates)) :
    (qualifyModule classes templates).classes.Perm (qualifyModule classes' templates').classes ∧
      (qualifyModule classes templates).templates.Perm
        (qualifyModule classes' templates').templates := by
  have hrecords := moduleRecords_perm classes classes' templates templates' hclasses htemplates
  have hnamed' : ∀ c ∈ moduleRecords classes' templates', c.WellNamed :=
    fun c hc => hnamed c (hrecords.mem_iff.mpr hc)
  have htypes := qualifiedType_of_perm _ _ hrecords hunique
  rw [classes_qualifyModule _ _ hnamed, classes_qualifyModule _ _ hnamed',
    templates_qualifyModule _ _ hnamed, templates_qualifyModule _ _ hnamed']
  simp only [htypes]
  exact ⟨hclasses.map _, htemplates.map _⟩

theorem DistinctDeclarations.of_perm (headers other : List Header)
    (hdistinct : DistinctDeclarations headers) (h : headers.Perm other) :
    DistinctDeclarations other :=
  ⟨((h.flatMap_right _).map _).nodup_iff.mp hdistinct.classes,
    ((h.flatMap_right _).map _).nodup_iff.mp hdistinct.classTemplates,
    ((h.flatMap_right _).map _).nodup_iff.mp hdistinct.typedefs⟩

end Records

/-- Look-ups in lists of the same items find the same. -/
theorem LooksUp.eq_of_perm {α : Type} [NamedSymbol α] (items other : List α)
    (find find' : String → Option α) (h : LooksUp items find) (h' : LooksUp other find')
    (hperm : items.Perm other) (name : String) : find name = find' name := by
  ext item
  rw [h.eq_some_iff, h'.eq_some_iff, hperm.mem_iff]

namespace BindingModule

section Distinct

variable (policy : CollisionPolicy) (headers : List Header)
  (hdistinct : DistinctDeclarations headers)
include hdistinct

-- Where no name is declared twice, the policy has no say.
theorem declaredClasses_of_distinct :
    declaredClasses policy headers = headers.flatMap (·.classes) :=
  aggregated_of_nodup policy _ hdistinct.classes

variable (table : SymbolTable) (hgathers : table.Gathers policy headers)
include hgathers

theorem classTemplates_of_distinct :
    table.classTemplates.toList = headers.flatMap (·.classTemplates) := by
  rw [hgathers.classTemplates.toList]
  exact aggregated_of_nodup policy _ hdistinct.classTemplates

theorem typedefs_of_distinct : table.typedefs.toList = headers.flatMap (·.typedefs) := by
  rw [hgathers.typedefs.toList]
  exact aggregated_of_nodup policy _ hdistinct.typedefs

-- The records that are qualified are those the headers declare, in another order.
theorem moduleRecords_perm_headerRecords (sorted : List ClassRecord)
    (hperm : sorted.Perm (declaredClasses policy headers)) :
    (moduleRecords sorted table.classTemplates.toList).Perm (headerRecords headers) := by
  rw [declaredClasses_of_distinct policy headers hdistinct] at hperm
  rw [classTemplates_of_distinct policy headers hdistinct table hgathers]
  exact moduleRecords_perm _ _ _ _ hperm (List.Perm.refl _)

end Distinct

section Equivalence

variable (name : String) (headerDir : Path) (known : List String) (policy : CollisionPolicy)
  (headers other : List Header) (horder : headers.Perm other)
  (hdistinct : DistinctDeclarations headers)
include horder hdistinct

theorem declaredClasses_perm :
    (declaredClasses policy headers).Perm (declaredClasses policy other) := by
  rw [declaredClasses_of_distinct policy headers hdistinct,
    declaredClasses_of_distinct policy other (hdistinct.of_perm headers other horder)]
  exact horder.flatMap_right _

variable (hnamed : ∀ c ∈ headerRecords headers, c.WellNamed)
  (hunique : UniqueOwners (headerRecords headers))
include hnamed hunique

/-- Modules put together from the same headers hold the same. -/
theorem equivalent_assembled (table table' : SymbolTable) (sorted sorted' : List ClassRecord)
    (hprepared : Prepared policy headers table sorted)
    (hprepared' : Prepared policy other table' sorted') :
    (assembled name headerDir headers known table sorted).Equivalent
      (assembled name headerDir other known table' sorted') := by
  have hdistinct' := hdistinct.of_perm headers other horder
  have hgathers := hprepared.gathers
  have hgathers' := hprepared'.gathers
  have hsorted : sorted.Perm sorted' :=
    hprepared.perm.trans ((declaredClasses_perm policy headers other horder hdistinct).trans
      hprepared'.perm.symm)
  have htemplates : table.classTemplates.toList.Perm table'.classTemplates.toList := by
    rw [classTemplates_of_distinct policy headers hdistinct table hgathers,
      classTemplates_of_distinct policy other hdistinct' table' hgathers']
    exact horder.flatMap_right _
  have htypedefs : table.typedefs.toList.Perm table'.typedefs.toList := by
    rw [typedefs_of_distinct policy headers hdistinct table hgathers,
      typedefs_of_distinct policy other hdistinct' table' hgathers']
    exact horder.flatMap_right _
  -- Both runs qualify the same records, and every word has the same owner in both.
  have hrecords := moduleRecords_perm_headerRecords policy headers hdistinct table hgathers sorted
    hprepared.perm
  have hqualified := qualifyModule_perm _ _ _ _ hsorted htemplates
    (fun c hc => hnamed c (hrecords.mem_iff.mp hc)) (hunique.of_perm _ _ hrecords.symm)
  rw [← (classMap_assembled name headerDir headers known policy table sorted hprepared).2,
    ← (classMap_assembled name headerDir other known policy table' sorted' hprepared').2,
    ← (templateMap_assembled name headerDir headers known policy table sorted hprepared).2,
    ← (templateMap_assembled name headerDir other known policy table' sorted' hprepared').2]
    at hqualified
  have hsound := sound_assembled name headerDir headers known policy table sorted hprepared
  have hsound' := sound_assembled name headerDir other known policy table' sorted' hprepared'
  have hdependencies : Dict.sortedNames (headers.flatMap (·.dependencies)) =
      Dict.sortedNames (other.flatMap (·.dependencies)) :=
    Dict.sortedNames_congr _ _ fun dependency => (horder.flatMap_right _).mem_iff
  exact {
    classes := hqualified.1
    classTemplates := hqualified.2
    typedefs := htypedefs
    class? := hsound.class?.eq_of_perm _ _ _ _ hsound'.class? hqualified.1
    classTemplate? := hsound.classTemplate?.eq_of_perm _ _ _ _ hsound'.classTemplate? hqualified.2
    typedef? := hsound.typedef?.eq_of_perm _ _ _ _ hsound'.typedef? htypedefs
    enums := by
      change table.enums.Perm table'.enums
      rw [hgathers.enums, hgathers'.enums]
      exact horder.flatMap_right _
    functions := by
      change table.functions.Perm table'.functions
      rw [hgathers.functions, hgathers'.functions]
      exact horder.flatMap_right _
    operators := by
      change table.operators.Perm table'.operators
      rw [hgathers.operators, hgathers'.operators]
      exact horder.flatMap_right _
    dependencies := congrArg (resolveDependencies name · known) hdependencies
    dependencyHeaders := hdependencies }

end Equivalence

/-- If no name is declared twice, and no word by classes of different names, then the order of the
    headers does not matter. -/
theorem ofHeaders_perm (name : String) (headerDir : Path) (headers other : List Header)
    (known : List String) (policy : CollisionPolicy) (horder : headers.Perm other)
    (hdistinct : DistinctDeclarations headers)
    (hnamed : ∀ c ∈ headerRecords headers, c.WellNamed)
    (hunique : UniqueOwners (headerRecords headers)) :
    SameOutcome name (ofHeaders name headerDir headers known policy)
      (ofHeaders name headerDir other known policy) := by
  have hdistinct' := hdistinct.of_perm headers other horder
  have hdeclared := declaredClasses_perm policy headers other horder hdistinct
  have hbases := baseName_of_perm _ _ hdeclared
  have hacyclic : (∀ c ∈ declaredClasses policy headers,
      Acc (BaseName (declaredClasses policy headers)) c.name) ↔
        ∀ c ∈ declaredClasses policy other,
          Acc (BaseName (declaredClasses policy other)) c.name := by
    rw [hbases]
    exact forall_congr' fun c => by rw [hdeclared.mem_iff]
  -- Nothing is declared twice, so each run ends in a module or over a circle, both alike.
  rcases ofHeaders_cases name headerDir headers known policy with
    ⟨table, sorted, hprepared, hacc, hok⟩ | ⟨e, _, hdup, _⟩ | ⟨stuck, hacc, hstuck, herror⟩
  · rcases ofHeaders_cases name headerDir other known policy with
      ⟨table', sorted', hprepared', _, hok'⟩ | ⟨e, _, hdup, _⟩ | ⟨stuck, hacc', _, _⟩
    · rw [hok, hok']
      exact .ok _ _ (equivalent_assembled name headerDir known policy headers other horder hdistinct
        hnamed hunique table table' sorted sorted' hprepared hprepared')
    · exact absurd hdistinct' hdup
    · exact absurd (hacyclic.mp hacc) hacc'
  · exact absurd hdistinct hdup
  · rcases ofHeaders_cases name headerDir other known policy with
      ⟨_, _, _, hacc', _⟩ | ⟨e, _, hdup, _⟩ | ⟨stuck', _, hstuck', herror'⟩
    · exact absurd (hacyclic.mpr hacc') hacc
    · exact absurd hdistinct' hdup
    · rw [herror, herror']
      refine .cycle _ _ fun c => ?_
      rw [hstuck, hstuck', hbases, (hdeclared.map (·.name)).mem_iff]

/-- Two headers that declare types of each other's names. -/
def crossedHeaders : List Header :=
  [{ path := "Base.hxx", dependencies := ["gp_Pnt.hxx"], classes := crossedClasses.take 1 },
   { path := "Kind.hxx", dependencies := ["Geom_Base.hxx"], classes := crossedClasses.drop 1
     classTemplates := hidingTemplates }]

theorem ofHeaders_perm_crossed :
    DistinctDeclarations crossedHeaders ∧ (∀ c ∈ headerRecords crossedHeaders, c.WellNamed) ∧
      UniqueOwners (headerRecords crossedHeaders) ∧
      SameOutcome "Geom" (ofHeaders "Geom" "include" crossedHeaders ["gp"] .merge)
        (ofHeaders "Geom" "include" crossedHeaders.reverse ["gp"] .merge) := by
  have hdistinct : DistinctDeclarations crossedHeaders := ⟨by decide, by decide, by decide⟩
  have hunique : UniqueOwners (headerRecords crossedHeaders) := by decide +kernel
  exact ⟨hdistinct, wellNamed_crossed, hunique,
    ofHeaders_perm "Geom" "include" crossedHeaders crossedHeaders.reverse ["gp"] .merge
      (List.reverse_perm crossedHeaders).symm hdistinct wellNamed_crossed hunique⟩

end BindingModule

end HeaderBinding
