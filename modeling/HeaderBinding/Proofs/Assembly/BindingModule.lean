import HeaderBinding.Assembly.BindingModule
import HeaderBinding.Proofs.Assembly.Aggregation
import HeaderBinding.Proofs.ClassOrder.Sort
import HeaderBinding.Proofs.Qualification.Module

/-!
# Modules Put Together

When a module can be put together, and what it is like.

Four steps lead from headers to a module, and each of them builds the collection of classes anew.
Gathering makes one record a name of the declarations. Ordering puts the records behind their bases.
Qualifying rewrites signatures in place. At last a new index is made. What the steps keep is said in
terms of names alone, which only the first of them chooses.

There are three ways this can end (`ofHeaders_cases`). A name may be declared twice where that is
rejected, the classes may derive from each other in a circle, or there is a module. The circle is
one of the records and not of the declarations, since a declaration that is overwritten takes its
bases with it.

## Main definitions

* `LooksUp`: A look-up finds the items of a list by name.
* `BindingModule.Sound`: A module holds what its headers declare.
* `BindingModule.Prepared`: A table is filled and its classes are in order.
* `BindingModule.assembled`: The module of a filled table and an order.

## Theorems

* `BindingModule.ofHeaders_cases`: The three outcomes.
* `BindingModule.sound_assembled`: What the steps keep.
* `BindingModule.ofHeaders_sound`: When there is a module, and that it is sound.
-/

namespace HeaderBinding

/-- A look-up finds the items of a list by name, of which there is no more than one for a name. -/
structure LooksUp {α : Type} [NamedSymbol α] (items : List α) (find : String → Option α) :
    Prop where
  nodup : (items.map symbolName).Nodup
  eq_some_iff : ∀ name item, find name = some item ↔ item ∈ items ∧ symbolName item = name

theorem SymbolMap.looksUp {α : Type} [NamedSymbol α] (s : SymbolMap α) (h : s.WellFormed) :
    LooksUp s.toList s.get? :=
  ⟨s.nodup_names h, s.get?_eq_some_iff h⟩

/-- Every class stays behind its bases when signatures change. -/
theorem BasesFirst.map_mapTypes (classes : List ClassRecord) (h : BasesFirst classes)
    (f : ClassRecord → String → String) :
    BasesFirst (classes.map fun c => c.mapTypes (f c)) := by
  intro i j derived base hi hj hsuper
  rw [List.getElem?_map, Option.map_eq_some_iff] at hi hj
  rcases hi with ⟨d, hd, rfl⟩
  rcases hj with ⟨b, hb, rfl⟩
  exact h i j d b hd hb hsuper

namespace BindingModule

/-- A module holds every class that its headers declare once, each behind its bases, and its
    look-ups find what it holds. -/
structure Sound (m : BindingModule) (headers : List Header) : Prop where
  nodup : (m.classes.map (·.name)).Nodup
  mem_names : ∀ name, name ∈ m.classes.map (·.name) ↔
    name ∈ (headers.flatMap (·.classes)).map (·.name)
  bases_first : BasesFirst m.classes
  class? : LooksUp m.classes m.class?
  classTemplate? : LooksUp m.classTemplates m.classTemplate?
  typedef? : LooksUp m.typedefs m.typedef?

/-- The records that the classes of the headers come to. -/
def declaredClasses (policy : CollisionPolicy) (headers : List Header) : List ClassRecord :=
  aggregated policy (headers.flatMap (·.classes))

/-- A table is filled from headers, and its classes are put into an order with bases first. -/
structure Prepared (policy : CollisionPolicy) (headers : List Header) (table : SymbolTable)
    (sorted : List ClassRecord) : Prop where
  gathers : table.Gathers policy headers
  perm : sorted.Perm (declaredClasses policy headers)
  bases_first : BasesFirst sorted

/-- The module of a filled table whose classes have been put into an order. -/
def assembled (name : String) (headerDir : Path) (headers : List Header) (known : List String)
    (table : SymbolTable) (sorted : List ClassRecord) : BindingModule where
  name := name
  headerDir := headerDir
  headers := headers
  classMap := .ofList (qualifyModule sorted table.classTemplates.toList).classes
  templateMap := .ofList (qualifyModule sorted table.classTemplates.toList).templates
  typedefMap := table.typedefs
  enums := table.enums
  functions := table.functions
  operators := table.operators
  dependencies :=
    resolveDependencies name (Dict.sortedNames (headers.flatMap (·.dependencies))) known
  dependencyHeaders := Dict.sortedNames (headers.flatMap (·.dependencies))

section Assembly

variable (name : String) (headerDir : Path) (headers : List Header) (known : List String)
  (policy : CollisionPolicy)

theorem ofHeaders_eq :
    ofHeaders name headerDir headers known policy = (do
      let table ← SymbolTable.ofHeaders name headers policy
      let sorted ← (sortClasses table.classes.toList).mapError (.cycle name)
      return assembled name headerDir headers known table sorted) :=
  rfl

/-- Putting a module together ends in one of three ways. -/
theorem ofHeaders_cases :
    (∃ table sorted, Prepared policy headers table sorted ∧
      (∀ c ∈ declaredClasses policy headers,
        Acc (BaseName (declaredClasses policy headers)) c.name) ∧
      ofHeaders name headerDir headers known policy =
        .ok (assembled name headerDir headers known table sorted)) ∨
    (∃ e, policy = .reject ∧ ¬ DistinctDeclarations headers ∧
      ofHeaders name headerDir headers known policy = .error e) ∨
    (∃ stuck, (¬ ∀ c ∈ declaredClasses policy headers,
        Acc (BaseName (declaredClasses policy headers)) c.name) ∧
      (∀ other, other ∈ stuck ↔ other ∈ (declaredClasses policy headers).map (·.name) ∧
        ¬ Acc (BaseName (declaredClasses policy headers)) other) ∧
      ofHeaders name headerDir headers known policy = .error (.cycle name stuck)) := by
  rw [ofHeaders_eq]
  rcases SymbolTable.ofHeaders_gathers name headers policy with
    ⟨table, htable, hgathers⟩ | ⟨e, herror, hreject, hdup⟩
  · -- The table is filled, and it depends on the bases whether its classes can be ordered.
    have hlist : table.classes.toList = declaredClasses policy headers := hgathers.classes.toList
    have hnodup : ((declaredClasses policy headers).map (·.name)).Nodup := by
      rw [← hlist]
      exact table.classes.nodup_names hgathers.classes.wellFormed
    rw [htable]
    by_cases hacc : ∀ c ∈ declaredClasses policy headers,
        Acc (BaseName (declaredClasses policy headers)) c.name
    · left
      rcases sortClasses_eq_ok _ hnodup hacc with ⟨sorted, hsorted, hperm, hfirst⟩
      refine ⟨table, sorted, ⟨hgathers, hperm, hfirst⟩, hacc, ?_⟩
      change ((sortClasses table.classes.toList).mapError (ModuleError.cycle name) >>= _) = _
      rw [hlist, hsorted]
      rfl
    · right; right
      rcases sortClasses_eq_error _ hnodup hacc with ⟨stuck, hsorted, hstuck⟩
      refine ⟨stuck, hacc, hstuck, ?_⟩
      change ((sortClasses table.classes.toList).mapError (ModuleError.cycle name) >>= _) = _
      rw [hlist, hsorted]
      rfl
  · right; left
    refine ⟨e, hreject, hdup, ?_⟩
    rw [herror]
    rfl

end Assembly

section Assembled

variable (name : String) (headerDir : Path) (headers : List Header) (known : List String)
  (policy : CollisionPolicy) (table : SymbolTable) (sorted : List ClassRecord)
  (hprepared : Prepared policy headers table sorted)
include hprepared

theorem nodup_sorted : (sorted.map (·.name)).Nodup := by
  have hnames := table.classes.nodup_names hprepared.gathers.classes.wellFormed
  rw [SymbolMap.names, hprepared.gathers.classes.toList] at hnames
  exact (hprepared.perm.map (·.name)).nodup_iff.mpr hnames

-- The new index is made of the qualified classes, which have the names they had.
theorem classMap_assembled :
    (assembled name headerDir headers known table sorted).classMap.WellFormed ∧
      (assembled name headerDir headers known table sorted).classes =
        (qualifyModule sorted table.classTemplates.toList).classes := by
  rcases exists_qualifyModule_eq sorted table.classTemplates.toList with ⟨f, hclasses, _⟩
  refine ⟨(SymbolMap.ofList_gathers _).wellFormed, SymbolMap.toList_ofList _ ?_⟩
  rw [hclasses, List.map_map]
  exact nodup_sorted headers policy table sorted hprepared

theorem templateMap_assembled :
    (assembled name headerDir headers known table sorted).templateMap.WellFormed ∧
      (assembled name headerDir headers known table sorted).classTemplates =
        (qualifyModule sorted table.classTemplates.toList).templates := by
  rcases exists_qualifyModule_eq sorted table.classTemplates.toList with ⟨f, _, htemplates⟩
  refine ⟨(SymbolMap.ofList_gathers _).wellFormed, SymbolMap.toList_ofList _ ?_⟩
  rw [htemplates, List.map_map]
  exact table.classTemplates.nodup_names hprepared.gathers.classTemplates.wellFormed

/-- The module of a table is sound. -/
theorem sound_assembled : (assembled name headerDir headers known table sorted).Sound headers := by
  have hclassMap := classMap_assembled name headerDir headers known policy table sorted hprepared
  have htemplateMap :=
    templateMap_assembled name headerDir headers known policy table sorted hprepared
  rcases exists_qualifyModule_eq sorted table.classTemplates.toList with ⟨f, hclasses, _⟩
  have hnames : (assembled name headerDir headers known table sorted).classes.map (·.name) =
      sorted.map (·.name) := by
    rw [hclassMap.2, hclasses, List.map_map]
    rfl
  refine ⟨?_, fun other => ?_, ?_, ?_, ?_, ?_⟩
  · rw [hnames]
    exact nodup_sorted headers policy table sorted hprepared
  · -- The names are those of the declarations, each once, whatever became of the records.
    have hdeclared : (declaredClasses policy headers).map (·.name) =
        ((headers.flatMap (·.classes)).map (·.name)).eraseDups :=
      map_symbolName_aggregated policy (headers.flatMap (·.classes))
    rw [hnames, (hprepared.perm.map (·.name)).mem_iff, hdeclared, List.mem_eraseDups]
  · rw [hclassMap.2, hclasses]
    exact hprepared.bases_first.map_mapTypes sorted (f [])
  · exact SymbolMap.looksUp _ hclassMap.1
  · exact SymbolMap.looksUp _ htemplateMap.1
  · exact SymbolMap.looksUp _ hprepared.gathers.typedefs.wellFormed

end Assembled

/-- There is a module unless a name is declared twice where that is rejected, or the classes derive
    from each other in a circle. A module holds every class its headers declare once, each behind
    its bases, and finds everything it holds by name. -/
theorem ofHeaders_sound (name : String) (headerDir : Path) (headers : List Header)
    (known : List String) (policy : CollisionPolicy) :
    ((∃ m, ofHeaders name headerDir headers known policy = .ok m) ↔
      (policy ≠ .reject ∨ DistinctDeclarations headers) ∧
        ∀ other, ¬ Relation.TransGen (BaseName (declaredClasses policy headers)) other other) ∧
    ∀ m, ofHeaders name headerDir headers known policy = .ok m → m.Sound headers := by
  rw [← forall_acc_baseName_iff]
  rcases ofHeaders_cases name headerDir headers known policy with
    ⟨table, sorted, hprepared, hacc, hok⟩ | ⟨e, hreject, hdup, herror⟩ | ⟨stuck, hacc, _, herror⟩
  · refine ⟨iff_of_true ⟨_, hok⟩ ⟨?_, hacc⟩, fun m hm => ?_⟩
    · exact hprepared.gathers.distinct
    · rw [hok] at hm
      rw [← Except.ok.inj hm]
      exact sound_assembled name headerDir headers known policy table sorted hprepared
  · rw [herror]
    refine ⟨iff_of_false (fun ⟨m, hm⟩ => ?_) (fun h => ?_), fun m hm => ?_⟩
    · exact absurd hm (by simp only [reduceCtorEq, not_false_eq_true])
    · exact h.1.elim (fun hc => hc hreject) hdup
    · exact absurd hm (by simp only [reduceCtorEq, not_false_eq_true])
  · rw [herror]
    refine ⟨iff_of_false (fun ⟨m, hm⟩ => ?_) (fun h => hacc h.2), fun m hm => ?_⟩
    · exact absurd hm (by simp only [reduceCtorEq, not_false_eq_true])
    · exact absurd hm (by simp only [reduceCtorEq, not_false_eq_true])

/-- A class, and a base of it that is declared a second time with a base of its own. -/
def repeatedHeaders : List Header :=
  [{ path := "Derived.hxx"
     classes := [{ name := "Derived", superclasses := ["Base", "Elsewhere"] }] },
   { path := "Base.hxx", classes := [{ name := "Base" }] },
   { path := "More.hxx", classes := [{ name := "Base", superclasses := ["Elsewhere"] }] }]

theorem ofHeaders_sound_repeated :
    (∃ m, ofHeaders "geom" "include" repeatedHeaders [] .merge = .ok m ∧
      m.Sound repeatedHeaders) ∧
    ¬ ∃ m, ofHeaders "geom" "include" repeatedHeaders [] .reject = .ok m := by
  have hmerge := ofHeaders_sound "geom" "include" repeatedHeaders [] .merge
  have hreject := ofHeaders_sound "geom" "include" repeatedHeaders [] .reject
  have hrecords : ∀ c ∈ declaredClasses .merge repeatedHeaders,
      ∀ base ∈ (declaredClasses .merge repeatedHeaders).map (·.name),
        base ∈ c.superclasses → base = "Base" ∧ c.name = "Derived" := by
    decide +kernel
  have hedge : ∀ base derived, BaseName (declaredClasses .merge repeatedHeaders) base derived →
      base = "Base" ∧ derived = "Derived" := by
    rintro base _ ⟨hbase, c, hc, rfl, hsuper⟩
    exact hrecords c hc base hbase hsuper
  have hacyclic : ∀ other, ¬ Relation.TransGen
      (BaseName (declaredClasses .merge repeatedHeaders)) other other := by
    intro other hcycle
    rcases Relation.TransGen.head'_iff.mp hcycle with ⟨_, hfirst, _⟩
    rcases Relation.TransGen.tail'_iff.mp hcycle with ⟨_, _, hlast⟩
    have heq := (hedge _ _ hfirst).1.symm.trans (hedge _ _ hlast).2
    exact absurd heq (by decide)
  refine ⟨?_, fun hok => ?_⟩
  · rcases hmerge.1.mpr ⟨Or.inl (by decide), hacyclic⟩ with ⟨m, hm⟩
    exact ⟨m, hm, hmerge.2 m hm⟩
  · rcases (hreject.1.mp hok).1 with hpolicy | hdistinct
    · exact hpolicy rfl
    · exact absurd hdistinct.classes (by decide)

end BindingModule

end HeaderBinding
