import HeaderBinding.Assembly.InnerTypes

/-!
# Types in Signatures

Changing the types a class mentions.

A scope is applied to a class by applying it to every type in the signatures of the class. Nothing
else of the class is touched, and in particular not what the class is called, what it derives from
and which types it declares in itself. So scopes can be applied one after the other and still be the
scopes they were, and applying several of them comes to applying one function to every type
(`foldl_apply_fst`).

## Main definitions

* `Method.mapTypes`, `ClassRecord.mapTypes`: A function applied to every type in signatures.
* `ClassRecord.signatureTypes`: The types in the signatures of a class.
* `qualifyThrough`: A type after one scope and another.

## Theorems

* `ClassRecord.mapTypes_mapTypes`: One function after the other.
* `ClassRecord.mapTypes_eq_self`: A function that keeps the types keeps the class.
* `foldl_apply_fst`: Applying scopes is applying a function.
* `foldl_apply_eq_self`: Scopes that report no change make none.
-/

namespace HeaderBinding

/-- A function applied to every type a method mentions. -/
def Method.mapTypes (f : String → String) (m : Method) : Method :=
  { m with
    args := m.args.map fun a => { a with type := a.type.map f }
    returnType := m.returnType.map f }

namespace Method

theorem mapTypes_mapTypes (f g : String → String) (m : Method) :
    (m.mapTypes f).mapTypes g = m.mapTypes (fun type => g (f type)) := by
  simp only [mapTypes, List.map_map, Option.map_map, Function.comp_def]

/-- A function that keeps the types a method mentions keeps the method. -/
theorem mapTypes_eq_self (f : String → String) (m : Method)
    (h : ∀ type ∈ InnerTypes.mentionedTypes m, f type = type) : m.mapTypes f = m := by
  have hargs : ∀ a ∈ m.args, { a with type := a.type.map f } = a := by
    intro a ha
    cases htype : a.type with
    | none => rw [Option.map_none, ← htype]
    | some type =>
        have hmem : type ∈ InnerTypes.mentionedTypes m :=
          List.mem_append.mpr (Or.inl (List.mem_filterMap.mpr ⟨a, ha, htype⟩))
        rw [Option.map_some, h type hmem, ← htype]
  have hreturn : m.returnType.map f = m.returnType := by
    cases htype : m.returnType with
    | none => rfl
    | some type =>
        have hmem : type ∈ InnerTypes.mentionedTypes m := by
          refine List.mem_append.mpr (Or.inr ?_)
          rw [htype]
          exact List.mem_singleton.mpr rfl
        rw [Option.map_some, h type hmem]
  rw [mapTypes, hreturn, List.map_congr_left hargs, List.map_id']

theorem mentionedTypes_mapTypes (f : String → String) (m : Method) :
    InnerTypes.mentionedTypes (m.mapTypes f) = (InnerTypes.mentionedTypes m).map f := by
  simp only [InnerTypes.mentionedTypes, mapTypes, List.map_append, List.filterMap_map,
    List.map_filterMap, Option.toList_map]
  rfl

end Method

namespace ClassRecord

/-- A function applied to every type in the signatures of a class. -/
def mapTypes (f : String → String) (c : ClassRecord) : ClassRecord :=
  c.mapCallables (Method.mapTypes f)

/-- The types in the signatures of a class, those of the instance methods first and those of the
    constructors last. -/
def signatureTypes (c : ClassRecord) : List String :=
  c.callables.flatMap InnerTypes.mentionedTypes

theorem callables_mapTypes (f : String → String) (c : ClassRecord) :
    (c.mapTypes f).callables = c.callables.map (Method.mapTypes f) := by
  simp only [callables, mapTypes, mapCallables, Dict.values, Dict.map, List.map_append,
    List.map_map]
  rfl

theorem signatureTypes_mapTypes (f : String → String) (c : ClassRecord) :
    (c.mapTypes f).signatureTypes = c.signatureTypes.map f := by
  simp only [signatureTypes, callables_mapTypes, List.flatMap_map, List.map_flatMap,
    Method.mentionedTypes_mapTypes]

theorem mapTypes_mapTypes (f g : String → String) (c : ClassRecord) :
    (c.mapTypes f).mapTypes g = c.mapTypes (fun type => g (f type)) := by
  have hmethods : ∀ m : Method, (m.mapTypes f).mapTypes g = m.mapTypes (fun type => g (f type)) :=
    Method.mapTypes_mapTypes f g
  simp only [mapTypes, mapCallables, Dict.map, List.map_map, Function.comp_def, hmethods]

/-- A function that keeps the types in the signatures of a class keeps the class. -/
theorem mapTypes_eq_self (f : String → String) (c : ClassRecord)
    (h : ∀ type ∈ c.signatureTypes, f type = type) : c.mapTypes f = c := by
  have hcallable : ∀ m ∈ c.callables, m.mapTypes f = m := fun m hm =>
    Method.mapTypes_eq_self f m fun type htype => h type (List.mem_flatMap.mpr ⟨m, hm, htype⟩)
  -- The two maps of methods are the same case, and the constructors are a plain list.
  have hdict : ∀ d : Dict Method, (∀ m ∈ d.values, m.mapTypes f = m) →
      d.map (Method.mapTypes f) = d := by
    intro d hd
    have hentries : ∀ entry ∈ d.entries, (entry.1, entry.2.mapTypes f) = entry := by
      intro entry hentry
      rw [hd entry.2 (List.mem_map_of_mem hentry)]
    rw [Dict.map, List.map_congr_left hentries, List.map_id']
  have hmethods := hdict c.methods fun m hm =>
    hcallable m (List.mem_append.mpr (Or.inl (List.mem_append.mpr (Or.inl hm))))
  have hstatic := hdict c.staticMethods fun m hm =>
    hcallable m (List.mem_append.mpr (Or.inl (List.mem_append.mpr (Or.inr hm))))
  have hconstructors : ∀ m ∈ c.constructors, m.mapTypes f = m := fun m hm =>
    hcallable m (List.mem_append.mpr (Or.inr hm))
  rw [mapTypes, mapCallables, hmethods, hstatic, List.map_congr_left hconstructors, List.map_id']
  -- Classes nest, and such a record is not its fields by definition.
  cases c
  rfl

end ClassRecord

section Application

variable (params : List String)

/-- A type after the scopes have been applied to it, one after the other. -/
def qualifyThrough (scopes : List InnerTypes) (type : String) : String :=
  scopes.foldl (fun type scope => scope.qualify params type) type

/-- Apply a scope to a class, and count the changes on top of those before. -/
def applyStep (counted : ClassRecord × Nat) (scope : InnerTypes) : ClassRecord × Nat :=
  ((scope.apply params counted.1).1, counted.2 + (scope.apply params counted.1).2)

theorem qualifyClass_eq (scopes : List InnerTypes) (c : ClassRecord) :
    qualifyClass scopes params c =
      (InnerTypes.of c :: scopes.filter (·.owner != c.name)).foldl (applyStep params) (c, 0) :=
  rfl

/-- Applying scopes is applying a function to every type. -/
theorem foldl_apply_fst (scopes : List InnerTypes) (c : ClassRecord) (changed : Nat) :
    (scopes.foldl (applyStep params) (c, changed)).1 =
      c.mapTypes (qualifyThrough params scopes) := by
  induction scopes generalizing c changed with
  | nil => exact (c.mapTypes_eq_self _ fun _ _ => rfl).symm
  | cons scope scopes ih =>
      have hstep : (scope.apply params c).1 = c.mapTypes (scope.qualify params) := rfl
      rw [List.foldl_cons, applyStep, ih, hstep, ClassRecord.mapTypes_mapTypes]
      rfl

/-- Scopes that report no change make none. -/
theorem foldl_apply_eq_self (scopes : List InnerTypes) (c : ClassRecord) (changed : Nat)
    (h : ∀ scope ∈ scopes, ∀ type ∈ c.signatureTypes, scope.qualify? params type = none) :
    scopes.foldl (applyStep params) (c, changed) = (c, changed) := by
  induction scopes with
  | nil => rfl
  | cons scope scopes ih =>
      have hnone := h scope (List.mem_cons_self ..)
      have hrecord : (scope.apply params c).1 = c :=
        c.mapTypes_eq_self _ fun type htype => by
          rw [InnerTypes.qualify, hnone type htype, Option.getD_none]
      -- No type is reported, so none is counted.
      have hcount : (scope.apply params c).2 = 0 := by
        refine List.countP_eq_zero.mpr fun type htype => ?_
        rw [hnone type htype, Option.isSome_none]
        exact Bool.false_ne_true
      rw [List.foldl_cons, applyStep, hrecord, hcount, Nat.add_zero]
      exact ih fun other hother => h other (List.mem_cons_of_mem _ hother)

end Application

end HeaderBinding
