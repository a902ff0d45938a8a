import HeaderBinding.Extraction.HeaderScope
import HeaderBinding.Proofs.Except
import HeaderBinding.Proofs.Record.Folding
import HeaderBinding.Proofs.Slots

/-!
# Filing

What reading a header does to the records, one thing at a time.

Whatever the walk through a header reads ends up as one of a few things that are filed, and so does
what is set aside and looked at when the walk is over. Filing one of them may look up a slot, and in
records where every slot is right it finds what it looks for and leaves every slot right
(`Collector.file_coherent`). So it does not matter what a header holds or in which order: whatever
is filed one after the other, no slot is ever missed (`Collector.fileAll_coherent`).

## Main definitions

* `Filing`: One thing that is filed.
* `Collector.file`, `Collector.fileAll`: Filing one thing, and several one after the other.
* `Header.Coherent`, `Collector.Coherent`: Nothing is in the records twice, and the slots are right.
* `Collector.result`: The record of the header, when everything is filed.

## Theorems

* `Collector.insertClass_cases`, `Collector.insertTemplate_cases`, `Collector.fileOutOfLine_cases`:
  What filing a class, a template or a method from outside does, if it does not fail.
* `Collector.file_coherent`, `Collector.fileAll_coherent`: Filing finds every slot it looks up.
* `Collector.finish_eq`: What is set aside is filed at the end.
-/

namespace HeaderBinding

/-- Nothing is in the record of a header twice, and the records in it are of this header. -/
structure Header.Coherent (header : Header) : Prop where
  classes : (header.classes.map (·.name)).Nodup
  templates : (header.classTemplates.map (·.name)).Nodup
  functions : (header.functions.map (·.signatureKey)).Nodup
  operators : (header.operators.map (·.signatureKey)).Nodup
  classPaths : ∀ c ∈ header.classes, c.path = some header.path
  templatePaths : ∀ t ∈ header.classTemplates, t.record.path = some header.path
  forwards : header.forwards.Nodup

namespace Extraction

/-- One thing that is filed. -/
inductive Filing where
  | dependency (path : String)
  | record (c : ClassRecord)
  | forward (name : String)
  | template (c : ClassRecord) (params : List TemplateParam)
  | enumeration (e : Enumeration)
  | typedef (t : Option Typedef)
  | function (f : FreeFunction)
  /-- A member function defined outside its class, when it is met. -/
  | setAside (entry : String × Method)
  /-- The same when all classes are known. -/
  | outOfLine (entry : String × Method)

namespace Collector

/-- File one thing. -/
def file (s : Collector) : Filing → Extract Collector
  | .dependency path => return { s with header := s.header.withDependency path }
  | .record c => s.insertClass c
  | .forward name => return s.addForward name
  | .template c params => s.insertTemplate c params
  | .enumeration e => return { s with header.enums := s.header.enums ++ [e] }
  | .typedef t => return s.addTypedef t
  | .function f => return s.insertFunction f
  | .setAside entry => return { s with outOfLine := s.outOfLine ++ [entry] }
  | .outOfLine entry => s.fileOutOfLine entry

/-- File several things one after the other. -/
def fileAll (s : Collector) (filings : List Filing) : Extract Collector :=
  filings.foldlM file s

/-- The slots are right, the records are of the header of that path, and no function, operator or
    name that is only declared is there twice. -/
structure Coherent (path : Path) (s : Collector) : Prop where
  path_eq : s.header.path = path
  classes : Slotted (fun c => c.path = some path) (·.name) s.classSlots s.header.classes
  templates : Slotted (fun t => t.record.path = some path) (·.record.name) s.templateSlots
    s.header.classTemplates
  functions : (s.header.functions.map (·.signatureKey)).Nodup
  operators : (s.header.operators.map (·.signatureKey)).Nodup
  forwards : s.header.forwards.Nodup

variable {path : Path} {s : Collector}

/-- Nothing has been filed yet. -/
theorem coherent_start (path : Path) : Coherent path { header := Header.ofPath path } where
  path_eq := rfl
  classes := Slotted.empty
  templates := Slotted.empty
  functions := List.nodup_nil
  operators := List.nodup_nil
  forwards := List.nodup_nil

/-- An item that is new may be put at the end. -/
theorem nodup_concat {α : Type} {l : List α} {a : α} (h : l.Nodup) (ha : a ∉ l) :
    (l ++ [a]).Nodup :=
  List.nodup_append_comm.mp (List.nodup_cons.mpr ⟨ha, h⟩)

/-- A function is only added under a key that none has yet. -/
theorem nodup_addDistinct {functions : List FreeFunction}
    (h : (functions.map (·.signatureKey)).Nodup) (f : FreeFunction) :
    ((addDistinct functions f).map (·.signatureKey)).Nodup := by
  unfold addDistinct
  split
  · exact h
  · next hnone =>
    rw [List.map_append]
    refine nodup_concat h fun hmem => hnone ?_
    rcases List.mem_map.mp hmem with ⟨g, hg, hkey⟩
    exact List.any_eq_true.mpr ⟨g, hg, beq_iff_eq.mpr hkey⟩

section Steps

variable {s s' : Collector}

/-- A class goes to the end, or it is folded into the record in the slot of its name. -/
theorem insertClass_cases {c : ClassRecord} (h : s.insertClass c = .ok s') :
    (s.classSlots[c.name]? = none ∧ s' = { s with
      header.classes := s.header.classes ++ [{ c with path := some s.header.path }]
      classSlots := s.classSlots.insert c.name s.header.classes.length }) ∨
    ∃ slot first, s.classSlots[c.name]? = some slot ∧ s.header.classes[slot]? = some first ∧
      s' = { s with header.classes :=
        s.header.classes.set slot (first.extend { c with path := some s.header.path }) } := by
  unfold insertClass at h
  rcases hslot : s.classSlots[c.name]? with _ | slot
  · simp only [hslot, pure_eq_ok] at h
    exact Or.inl ⟨rfl, h.symm⟩
  -- A slot without a record behind it would be a fault.
  · rcases hfirst : s.header.classes[slot]? with _ | first
    · simp only [hslot, hfirst] at h
      exact absurd h (throw_ne_ok _ _)
    · simp only [hslot, hfirst, pure_eq_ok] at h
      exact Or.inr ⟨slot, first, rfl, hfirst, h.symm⟩

/-- A class template goes to the end, or its class is folded into the one in the slot of its
    name. -/
theorem insertTemplate_cases {c : ClassRecord} {params : List TemplateParam}
    (h : s.insertTemplate c params = .ok s') :
    (s.templateSlots[c.name]? = none ∧ s' = { s with
      header.classTemplates := s.header.classTemplates ++
        [{ record := { c with path := some s.header.path }, typeParams := params }]
      templateSlots := s.templateSlots.insert c.name s.header.classTemplates.length }) ∨
    ∃ slot first, s.templateSlots[c.name]? = some slot ∧
      s.header.classTemplates[slot]? = some first ∧
      s' = { s with header.classTemplates := s.header.classTemplates.set slot { first with
        record := first.record.extend { c with path := some s.header.path } } } := by
  unfold insertTemplate at h
  rcases hslot : s.templateSlots[c.name]? with _ | slot
  · simp only [hslot, pure_eq_ok] at h
    exact Or.inl ⟨rfl, h.symm⟩
  · rcases hfirst : s.header.classTemplates[slot]? with _ | first
    · simp only [hslot, hfirst] at h
      exact absurd h (throw_ne_ok _ _)
    · simp only [hslot, hfirst, pure_eq_ok] at h
      exact Or.inr ⟨slot, first, rfl, hfirst, h.symm⟩

/-- A method from outside is passed over, or it goes into the record in the slot of its class. -/
theorem fileOutOfLine_cases {entry : String × Method} (h : s.fileOutOfLine entry = .ok s') :
    s' = s ∨ ∃ slot c, s.classSlots[entry.1]? = some slot ∧ s.header.classes[slot]? = some c ∧
      entry.2.hasRvalueArguments = false ∧
      s' = { s with header.classes := s.header.classes.set slot (c.addMethod entry.2) } := by
  unfold fileOutOfLine at h
  rcases hslot : s.classSlots[entry.1]? with _ | slot
  · simp only [hslot, pure_eq_ok] at h
    exact Or.inl h.symm
  · rcases hfound : s.header.classes[slot]? with _ | c
    · simp only [hslot, hfound] at h
      exact absurd h (throw_ne_ok _ _)
    · simp only [hslot, hfound] at h
      -- A method that is there already, or that takes what must not be bound, is passed over.
      split at h
      · exact Or.inl (pure_eq_ok.mp h).symm
      · next hfiled =>
        rw [Bool.or_eq_true, not_or, Bool.not_eq_true, Bool.not_eq_true] at hfiled
        exact Or.inr ⟨slot, c, rfl, hfound, hfiled.2, (pure_eq_ok.mp h).symm⟩

end Steps

/-- The names of the classes that are filed. -/
def classNames (s : Collector) : List String :=
  s.header.classes.map (·.name)

/-- Filing a class finds the slot of its name, if there is one, and the class is there afterwards. -/
theorem insertClass_coherent (hs : s.Coherent path) (c : ClassRecord) :
    ∃ s', s.insertClass c = .ok s' ∧ s'.Coherent path ∧ s.classNames ⊆ s'.classNames ∧
      c.name ∈ s'.classNames := by
  unfold insertClass classNames
  have hpath : ({ c with path := some s.header.path } : ClassRecord).path = some path :=
    congrArg some hs.path_eq
  rcases hslot : s.classSlots[c.name]? with _ | slot
  · simp only [hslot]
    refine ⟨_, rfl, ?_, ?_, ?_⟩
    · exact { hs with
        classes := hs.classes.push { c with path := some s.header.path } hpath hslot }
    · rw [List.map_append]
      exact List.subset_append_left _ _
    · exact List.mem_map.mpr ⟨_, List.mem_append_right _ (List.mem_singleton_self _), rfl⟩
  -- The slots are right, so there is a record in the slot. It keeps its name and its path.
  · rcases hs.classes.exists_getElem? hslot with ⟨first, hfirst⟩
    simp only [hslot, hfirst]
    refine ⟨_, rfl, ?_, ?_⟩
    · refine { hs with classes := hs.classes.set hfirst ?_ (ClassRecord.name_extend _ _) }
      rw [ClassRecord.path_extend]
      exact hs.classes.forall_mem first (List.mem_of_getElem? hfirst)
    · rw [map_set_of_getElem? _ _ slot first _ hfirst (ClassRecord.name_extend _ _)]
      exact ⟨List.Subset.refl _, List.mem_of_getElem? ((hs.classes.index _ _).mp hslot)⟩

/-- A class template is filed like a class, and the classes stay as they are. -/
theorem insertTemplate_coherent (hs : s.Coherent path) (c : ClassRecord)
    (params : List TemplateParam) :
    ∃ s', s.insertTemplate c params = .ok s' ∧ s'.Coherent path ∧
      s'.classNames = s.classNames := by
  unfold insertTemplate
  have hpath : ({ c with path := some s.header.path } : ClassRecord).path = some path :=
    congrArg some hs.path_eq
  rcases hslot : s.templateSlots[c.name]? with _ | slot
  · have hpush := hs.templates.push
      { record := { c with path := some s.header.path }, typeParams := params } hpath hslot
    simp only [hslot]
    exact ⟨_, rfl, { hs with templates := hpush }, rfl⟩
  -- The record in the slot keeps its name and its path, as for classes.
  · rcases hs.templates.exists_getElem? hslot with ⟨first, hfirst⟩
    simp only [hslot, hfirst]
    refine ⟨_, rfl, ?_, rfl⟩
    refine { hs with templates := hs.templates.set hfirst ?_ (ClassRecord.name_extend _ _) }
    rw [ClassRecord.path_extend]
    exact hs.templates.forall_mem first (List.mem_of_getElem? hfirst)

/-- A method goes into the record in the slot of its class, if there is one. -/
theorem fileOutOfLine_coherent (hs : s.Coherent path) (entry : String × Method) :
    ∃ s', s.fileOutOfLine entry = .ok s' ∧ s'.Coherent path ∧ s'.classNames = s.classNames := by
  unfold fileOutOfLine
  rcases hslot : s.classSlots[entry.1]? with _ | slot
  · exact ⟨s, rfl, hs, rfl⟩
  · rcases hs.classes.exists_getElem? hslot with ⟨c, hc⟩
    simp only [hc]
    split
    · exact ⟨s, rfl, hs, rfl⟩
    -- One more method changes neither what the record is called nor where it is from.
    · have hsame : (c.addMethod entry.2).name = c.name ∧ (c.addMethod entry.2).path = c.path := by
        unfold ClassRecord.addMethod
        split
        · exact ⟨rfl, rfl⟩
        · exact ⟨rfl, rfl⟩
      refine ⟨_, rfl, ?_, map_set_of_getElem? _ _ slot c _ hc hsame.1⟩
      refine { hs with classes := hs.classes.set hc ?_ hsame.1 }
      rw [hsame.2]
      exact hs.classes.forall_mem c (List.mem_of_getElem? hc)

/-- Filing one thing finds every slot it looks up, and leaves the slots right. No class is lost. -/
theorem file_coherent (hs : s.Coherent path) (f : Filing) :
    ∃ s', s.file f = .ok s' ∧ s'.Coherent path ∧ s.classNames ⊆ s'.classNames := by
  cases f with
  | record c =>
      rcases insertClass_coherent hs c with ⟨s', hfile, hs', hsubset, _⟩
      exact ⟨s', hfile, hs', hsubset⟩
  | template c params =>
      rcases insertTemplate_coherent hs c params with ⟨s', hfile, hs', hsame⟩
      exact ⟨s', hfile, hs', hsame.symm ▸ List.Subset.refl _⟩
  | outOfLine entry =>
      rcases fileOutOfLine_coherent hs entry with ⟨s', hfile, hs', hsame⟩
      exact ⟨s', hfile, hs', hsame.symm ▸ List.Subset.refl _⟩
  -- None of these touches a slot or a list that has to be free of repetitions.
  | dependency | enumeration | typedef | setAside =>
      exact ⟨_, rfl, { hs with }, List.Subset.refl _⟩
  -- A name is only added if it is new.
  | forward name =>
      refine ⟨_, rfl, ?_⟩
      unfold addForward
      split
      · exact ⟨hs, List.Subset.refl _⟩
      · next hnone =>
        have hnew : name ∉ s.header.forwards :=
          fun hmem => hnone (List.contains_iff_mem.mpr hmem)
        exact ⟨{ hs with forwards := nodup_concat hs.forwards hnew }, List.Subset.refl _⟩
  | function f =>
      refine ⟨_, rfl, ?_⟩
      unfold insertFunction
      split
      · exact ⟨{ hs with operators := nodup_addDistinct hs.operators f }, List.Subset.refl _⟩
      · exact ⟨{ hs with functions := nodup_addDistinct hs.functions f }, List.Subset.refl _⟩

/-- Whatever is filed, no slot is missed. -/
theorem fileAll_coherent (hs : s.Coherent path) (filings : List Filing) :
    ∃ s', s.fileAll filings = .ok s' ∧ s'.Coherent path ∧ s.classNames ⊆ s'.classNames := by
  -- By induction on what is filed, with right slots before each of the steps.
  induction filings generalizing s with
  | nil => exact ⟨s, rfl, hs, List.Subset.refl _⟩
  | cons f filings ih =>
      rcases file_coherent hs f with ⟨s₁, hfile, hs₁, hsubset₁⟩
      rcases ih hs₁ with ⟨s₂, hrest, hs₂, hsubset₂⟩
      refine ⟨s₂, ?_, hs₂, List.Subset.trans hsubset₁ hsubset₂⟩
      rw [fileAll, List.foldlM_cons, hfile]
      exact hrest

/-- What is collected, less the names that are not only declared. -/
def result (s : Collector) : Header :=
  { s.header with forwards := s.header.forwards.filter (!s.classSlots.contains ·) }

/-- What is left of the names that are only declared belongs to no class. -/
theorem Coherent.result (hs : s.Coherent path) :
    s.result.path = path ∧ s.result.Coherent ∧
      ∀ name ∈ s.result.forwards, name ∉ s.classNames := by
  refine ⟨hs.path_eq, ?_, fun name hname hmem => ?_⟩
  · exact {
      classes := hs.classes.index.nodup
      templates := hs.templates.index.nodup
      functions := hs.functions
      operators := hs.operators
      classPaths := fun c hc => hs.path_eq.symm ▸ hs.classes.forall_mem c hc
      templatePaths := fun t ht => hs.path_eq.symm ▸ hs.templates.forall_mem t ht
      forwards := hs.forwards.filter _ }
  -- Every class that is filed has a slot, and names with slots are taken off.
  · have hkept := (List.mem_filter.mp hname).2
    rw [Bool.not_eq_true', Std.HashMap.contains_eq_isSome_getElem?, Option.isSome_eq_false_iff,
      Option.isNone_iff_eq_none, hs.classes.index.eq_none_iff] at hkept
    exact hkept hmem

/-- What is set aside is filed like everything else. -/
theorem finish_eq (s : Collector) :
    s.finish = (do return (← s.fileAll (s.outOfLine.map .outOfLine)).result) := by
  rw [fileAll, List.foldlM_map]
  rfl

end Collector

end Extraction

end HeaderBinding
