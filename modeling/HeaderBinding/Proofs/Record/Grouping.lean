import HeaderBinding.Proofs.Dict.Merging
import HeaderBinding.Proofs.Record.Folding

/-!
# Grouping Redeclarations

A class that is declared in three pieces has one record, whichever two of the pieces are folded
first (`extend_assoc`).

Each field is folded by a rule of its own, and each rule can be grouped either way for a reason of
its own. Lists without keys are appended, bases are added unless they are there, maps are merged,
and nested classes are folded by the same law one level down.

Members that are told apart by a key are the one rule with a condition. A record with two members of
one key keeps both until it is folded into another, and then the second takes the place of the
first; but a third that is folded in before takes the place of the first as well, and is then
replaced itself. So the keys of the piece in the middle have to be distinct, at every depth. Nothing
is asked of the keys of the first and the last.

## Main definitions

* `takeIn`: Taking in one member that is told apart by a key.
* `ClassRecord.MapsSorted`: The maps of a record are in order.
* `ClassRecord.DistinctMembers`: No two members of a record have one key.

## Theorems

* `replaceOrAppend_takeIn`: Members folded in after another was taken in among them.
* `replaceOrAppend_assoc`, `addBases_assoc`, `joinComments_assoc`: The rules of single fields.
* `ClassRecord.MapsSorted.extend`: Folding keeps the maps of a record in order.
* `ClassRecord.extend_extend`: Class records may be grouped either way.
* `extend_assoc`: So may class records and class templates.
-/

namespace HeaderBinding

section Members

variable (key : Method → String)

/-- Take in a member, in the place of the first one with its key or else at the end. -/
def takeIn (members : List Method) (new : Method) : List Method :=
  (replaceFirst key new members).getD (members ++ [new])

theorem replaceOrAppend_eq_foldl (members incoming : List Method) :
    replaceOrAppend key members incoming = incoming.foldl (takeIn key) members := by
  rfl

theorem takeIn_cons (m : Method) (ms : List Method) (new : Method) :
    takeIn key (m :: ms) new =
      if key m = key new then new :: ms else m :: takeIn key ms new := by
  rw [takeIn, takeIn, replaceFirst]
  by_cases hkey : key m = key new
  · rw [if_pos hkey, if_pos hkey, Option.getD_some]
  · rw [if_neg hkey, if_neg hkey]
    cases replaceFirst key new ms with
    | none => rfl
    | some replaced => rfl

/-- Of two members with one key the second stands. -/
theorem takeIn_takeIn {first second : Method} (hkey : key first = key second)
    (members : List Method) :
    takeIn key (takeIn key members first) second = takeIn key members second := by
  induction members with
  | nil =>
      change takeIn key [first] second = [second]
      rw [takeIn_cons, if_pos hkey]
  | cons m ms ih =>
      by_cases hm : key m = key first
      · rw [takeIn_cons, if_pos hm, takeIn_cons, if_pos hkey, takeIn_cons, if_pos (hm.trans hkey)]
      · have hsecond : ¬ key m = key second := fun h => hm (h.trans hkey.symm)
        rw [takeIn_cons, if_neg hm, takeIn_cons, if_neg hsecond, takeIn_cons, if_neg hsecond, ih]

theorem mem_keys_takeIn (members : List Method) (new : Method) {k : String}
    (hk : k = key new ∨ k ∈ members.map key) : k ∈ (takeIn key members new).map key := by
  induction members with
  | nil => exact List.mem_singleton.mpr (hk.resolve_right List.not_mem_nil)
  | cons m ms ih =>
      rw [List.map_cons, List.mem_cons] at hk
      by_cases hm : key m = key new
      · rw [takeIn_cons, if_pos hm, List.map_cons, List.mem_cons]
        exact hk.elim Or.inl (Or.imp_left (fun h => h.trans hm))
      · rw [takeIn_cons, if_neg hm, List.map_cons, List.mem_cons]
        rcases hk with hnew | hfirst | hrest
        · exact Or.inr (ih (Or.inl hnew))
        · exact Or.inl hfirst
        · exact Or.inr (ih (Or.inr hrest))

/-- A member whose key is there already takes its place before or after others are taken in. -/
theorem takeIn_comm (members : List Method) {m new : Method} (hne : key m ≠ key new)
    (hmem : key m ∈ members.map key) :
    takeIn key (takeIn key members new) m = takeIn key (takeIn key members m) new := by
  induction members with
  | nil => exact absurd hmem List.not_mem_nil
  | cons first rest ih =>
      by_cases hm : key first = key m
      · have hfirst : ¬ key first = key new := fun h => hne (hm.symm.trans h)
        rw [takeIn_cons, if_neg hfirst, takeIn_cons, if_pos hm, takeIn_cons, if_pos hm, takeIn_cons,
          if_neg hne]
      · have hrest : key m ∈ rest.map key :=
          (List.mem_cons.mp hmem).resolve_left (fun h => hm h.symm)
        by_cases hnew : key first = key new
        · rw [takeIn_cons, if_pos hnew, takeIn_cons, if_neg hne.symm, takeIn_cons, if_neg hm,
            takeIn_cons, if_pos hnew]
        · rw [takeIn_cons, if_neg hnew, takeIn_cons, if_neg hm, takeIn_cons, if_neg hm, takeIn_cons,
            if_neg hnew, ih hrest]

theorem foldl_takeIn_comm (incoming members : List Method) (m : Method)
    (hnew : key m ∉ incoming.map key) (hmem : key m ∈ members.map key) :
    takeIn key (incoming.foldl (takeIn key) members) m =
      incoming.foldl (takeIn key) (takeIn key members m) := by
  induction incoming generalizing members with
  | nil => rfl
  | cons first rest ih =>
      rw [List.map_cons, List.mem_cons, not_or] at hnew
      rw [List.foldl_cons, List.foldl_cons, ← takeIn_comm key members hnew.1 hmem]
      exact ih (takeIn key members first) hnew.2 (mem_keys_takeIn key members first (Or.inr hmem))

/-- Members with distinct keys that have taken in another are folded in as they are and the other in
    turn. -/
theorem replaceOrAppend_takeIn (members incoming : List Method) (m : Method)
    (hnodup : (incoming.map key).Nodup) :
    replaceOrAppend key members (takeIn key incoming m) =
      takeIn key (replaceOrAppend key members incoming) m := by
  rw [replaceOrAppend_eq_foldl, replaceOrAppend_eq_foldl]
  induction incoming generalizing members with
  | nil => rfl
  | cons first rest ih =>
      rw [List.map_cons, List.nodup_cons] at hnodup
      by_cases hkey : key first = key m
      · -- The other replaces the first here, and there it replaces what the first has become.
        have hrest : key m ∉ rest.map key := hkey ▸ hnodup.1
        have hthere : key m ∈ (takeIn key members first).map key :=
          mem_keys_takeIn key members first (Or.inl hkey.symm)
        rw [takeIn_cons, if_pos hkey, List.foldl_cons, List.foldl_cons,
          foldl_takeIn_comm key rest _ m hrest hthere, takeIn_takeIn key hkey]
      · rw [takeIn_cons, if_neg hkey, List.foldl_cons, List.foldl_cons]
        exact ih (takeIn key members first) hnodup.2

theorem replaceOrAppend_assoc (members middle last : List Method)
    (hnodup : (middle.map key).Nodup) :
    replaceOrAppend key (replaceOrAppend key members middle) last =
      replaceOrAppend key members (replaceOrAppend key middle last) := by
  induction last generalizing middle with
  | nil => rfl
  | cons m rest ih =>
      have hcons : ∀ members, replaceOrAppend key members (m :: rest) =
          replaceOrAppend key (takeIn key members m) rest := fun _ => rfl
      rw [hcons, hcons, ← replaceOrAppend_takeIn key members middle m hnodup]
      exact ih (takeIn key middle m) ((replaceFirst_getD_spec key m middle).2 hnodup)

-- With two members of one key in the middle it would matter what is folded first.
example :
    let m := fun name => ({ name, fullName := "k" } : Method)
    replaceOrAppend (·.fullName) (replaceOrAppend (·.fullName) [] [m "a", m "b"]) [m "c"] ≠
      replaceOrAppend (·.fullName) [] (replaceOrAppend (·.fullName) [m "a", m "b"] [m "c"]) := by
  decide

end Members

section Bases

theorem mem_addBases (bases new : List String) (base : String) (h : base ∈ bases ∨ base ∈ new) :
    base ∈ addBases bases new := by
  unfold addBases
  induction new generalizing bases with
  | nil => exact h.resolve_right List.not_mem_nil
  | cons first rest ih =>
      rw [List.mem_cons] at h
      refine ih (if bases.contains first then bases else bases ++ [first]) ?_
      by_cases hthere : bases.contains first = true
      · rw [if_pos hthere]
        rw [List.contains_iff_mem] at hthere
        rcases h with hold | rfl | hrest
        · exact Or.inl hold
        · exact Or.inl hthere
        · exact Or.inr hrest
      · rw [if_neg hthere, List.mem_append, List.mem_singleton]
        rcases h with hold | hfirst | hrest
        · exact Or.inl (Or.inl hold)
        · exact Or.inl (Or.inr hfirst)
        · exact Or.inr hrest

theorem addBases_assoc (bases middle last : List String) :
    addBases (addBases bases middle) last = addBases bases (addBases middle last) := by
  induction last generalizing middle with
  | nil => rfl
  | cons base rest ih =>
      have hcons : ∀ bases, addBases bases (base :: rest) =
          addBases (if bases.contains base then bases else bases ++ [base]) rest := fun _ => rfl
      rw [hcons, hcons, ← ih]
      congr 1
      by_cases hmiddle : middle.contains base = true
      · -- A base of the middle is there already, whatever was added to it.
        have hthere : (addBases bases middle).contains base = true :=
          List.contains_iff_mem.mpr
            (mem_addBases bases middle base (Or.inr (List.contains_iff_mem.mp hmiddle)))
        rw [if_pos hmiddle, if_pos hthere]
      · rw [if_neg hmiddle, addBases.eq_def bases (middle ++ [base]), List.foldl_append]
        rfl

end Bases

theorem joinComments_assoc (first second third : Option String) :
    joinComments (joinComments first second) third =
      joinComments first (joinComments second third) := by
  cases first with
  | none => cases second with
    | none => cases third with
      | none => rfl
      | some c => rfl
    | some b => cases third with
      | none => rfl
      | some c => rfl
  | some a => cases second with
    | none => cases third with
      | none => rfl
      | some c => rfl
    | some b => cases third with
      | none => rfl
      | some c => exact congrArg some String.append_assoc

attribute [ext] ClassRecord

namespace ClassRecord

/-- The maps of a record are in order, those of nested classes apart. -/
structure MapsSorted (c : ClassRecord) : Prop where
  methods : c.methods.Sorted
  staticMethods : c.staticMethods.Sorted
  innerClasses : c.innerClasses.Sorted
  typedefs : c.typedefs.Sorted

/-- No two constructors, destructors or operators of a record have one key, those of nested classes
    apart. -/
structure DistinctMembers (c : ClassRecord) : Prop where
  constructors : (c.constructors.map (·.fullName)).Nodup
  destructors : (c.destructors.map (·.fullName)).Nodup
  operators : (c.operators.map (·.signatureKey)).Nodup

theorem innerClasses_extend_eq_mergeWith (c other : ClassRecord) :
    (c.extend other).innerClasses = c.innerClasses.mergeWith extend other.innerClasses := by
  rw [innerClasses_extend, Dict.mergeWith]
  congr 1
  funext inner entry
  rw [Dict.mergeEntry]
  cases inner.find? entry.1 with
  | none => rfl
  | some first => rfl

theorem union_assoc {α : Type} (d e g : Dict α) (he : e.Sorted) (hg : g.Sorted) :
    (d.union e).union g = d.union (e.union g) := by
  simp only [Dict.union_eq_mergeWith]
  exact d.mergeWith_assoc _ e g he hg (fun _ _ _ _ _ _ => rfl)

/-- The maps of a record stay in order, whatever is folded into it. -/
theorem MapsSorted.extend {c : ClassRecord} (h : c.MapsSorted) (other : ClassRecord) :
    (c.extend other).MapsSorted where
  methods := by
    rw [methods_extend, Dict.union_eq_mergeWith]
    exact Dict.sorted_mergeWith _ _ _ h.methods
  staticMethods := by
    rw [staticMethods_extend, Dict.union_eq_mergeWith]
    exact Dict.sorted_mergeWith _ _ _ h.staticMethods
  innerClasses := by
    rw [innerClasses_extend_eq_mergeWith]
    exact Dict.sorted_mergeWith _ _ _ h.innerClasses
  typedefs := by
    rw [typedefs_extend, Dict.union_eq_mergeWith]
    exact Dict.sorted_mergeWith _ _ _ h.typedefs

/-- Class records may be grouped either way. -/
theorem extend_extend (a b c : ClassRecord)
    (hb : b.Everywhere fun b => b.MapsSorted ∧ b.DistinctMembers) (hc : c.Everywhere MapsSorted) :
    (a.extend b).extend c = a.extend (b.extend c) := by
  -- Induction on the record in the middle, along whose nested classes the folding goes down.
  induction hb generalizing a c with
  | mk b here nested ih =>
      rcases here with ⟨hmaps, hmembers⟩
      have hinner : ((a.extend b).extend c).innerClasses =
          (a.extend (b.extend c)).innerClasses := by
        simp only [innerClasses_extend_eq_mergeWith]
        refine a.innerClasses.mergeWith_assoc extend b.innerClasses c.innerClasses
          hmaps.innerClasses hc.here.innerClasses (fun x name first second hfirst hsecond => ?_)
        exact ih (name, first) hfirst x second (hc.nested (name, second) hsecond)
      apply ClassRecord.ext
      case innerClasses => exact hinner
      case comment => simp only [comment_extend, joinComments_assoc]
      case isAbstract => simp only [isAbstract_extend, Bool.or_assoc]
      case superclasses => simp only [superclasses_extend, addBases_assoc]
      case methods =>
        simp only [methods_extend]
        exact union_assoc _ _ _ hmaps.methods hc.here.methods
      case staticMethods =>
        simp only [staticMethods_extend]
        exact union_assoc _ _ _ hmaps.staticMethods hc.here.staticMethods
      case typedefs =>
        simp only [typedefs_extend]
        exact union_assoc _ _ _ hmaps.typedefs hc.here.typedefs
      case constructors =>
        simp only [constructors_extend]
        exact replaceOrAppend_assoc _ _ _ _ hmembers.constructors
      case destructors =>
        simp only [destructors_extend]
        exact replaceOrAppend_assoc _ _ _ _ hmembers.destructors
      case operators =>
        simp only [operators_extend]
        exact replaceOrAppend_assoc _ _ _ _ hmembers.operators
      case fields => simp only [fields_extend, List.append_assoc]
      case enums => simp only [enums_extend, List.append_assoc]
      case name => simp only [name_extend]
      case path => simp only [path_extend]

end ClassRecord

/-- A third piece may be folded into the first two or into the second beforehand, for classes and
    for class templates. -/
theorem extend_assoc :
    (∀ a b c : ClassRecord,
      b.Everywhere (fun b => b.MapsSorted ∧ b.DistinctMembers) →
      c.Everywhere ClassRecord.MapsSorted →
      (a.extend b).extend c = a.extend (b.extend c)) ∧
    ∀ a b c : ClassTemplate,
      b.record.Everywhere (fun b => b.MapsSorted ∧ b.DistinctMembers) →
      c.record.Everywhere ClassRecord.MapsSorted →
      (a.extend b).extend c = a.extend (b.extend c) := by
  refine ⟨ClassRecord.extend_extend, fun a b c hb hc => ?_⟩
  have hrecord := a.record.extend_extend b.record c.record hb hc
  -- The parameters are those of the first piece that has any.
  have hparams : ((a.extend b).extend c).typeParams = (a.extend (b.extend c)).typeParams := by
    cases ha : a.typeParams with
    | nil => simp only [ClassTemplate.extend, ha, List.isEmpty_nil, if_true]
    | cons p ps => simp only [ClassTemplate.extend, ha, List.isEmpty_cons, Bool.false_eq_true,
        if_false]
  exact congrArg₂ ClassTemplate.mk hrecord hparams

section Pieces

/-- A nested class of one of three pieces of a class, with one constructor. -/
def nestedPiece (comment : String) : ClassRecord :=
  { name := "Shape::Part"
    constructors := [{ name := "Part", fullName := "Part()", comment := some comment }] }

/-- The second of the pieces, with a nested class and distinct constructors. -/
def middlePiece : ClassRecord :=
  { name := "Shape"
    constructors := [{ name := "Shape", fullName := "Shape()", comment := some "second" },
      { name := "Shape", fullName := "Shape(int)" }]
    innerClasses := ⟨[("Shape::Part", nestedPiece "second")]⟩ }

/-- The others, with two constructors of one spelling. -/
def outerPiece (comment : String) : ClassRecord :=
  { name := "Shape"
    constructors := [{ name := "Shape", fullName := "Shape()", comment := some comment },
      { name := "Shape", fullName := "Shape()" }]
    innerClasses := ⟨[("Shape::Kind", { name := "Shape::Kind" }),
      ("Shape::Part", nestedPiece comment)]⟩ }

theorem everywhere_middlePiece :
    middlePiece.Everywhere fun b => b.MapsSorted ∧ b.DistinctMembers := by
  refine .mk _ ⟨⟨by decide, by decide, by decide, by decide⟩, ⟨by decide, by decide, by decide⟩⟩
    (List.forall_mem_singleton.mpr ?_)
  exact .mk _ ⟨⟨by decide, by decide, by decide, by decide⟩, ⟨by decide, by decide, by decide⟩⟩
    (fun _ h => absurd h List.not_mem_nil)

theorem everywhere_outerPiece : (outerPiece "third").Everywhere ClassRecord.MapsSorted := by
  refine .mk _ ⟨by decide, by decide, by decide, by decide⟩ ?_
  refine List.forall_mem_cons.mpr ⟨?_, List.forall_mem_singleton.mpr ?_⟩
  all_goals
    exact .mk _ ⟨by decide, by decide, by decide, by decide⟩ (fun _ h => absurd h List.not_mem_nil)

/-- The first piece is a template without parameters, the second brings them along. -/
theorem extend_assoc_pieces :
    middlePiece.Everywhere (fun b => b.MapsSorted ∧ b.DistinctMembers) ∧
      (outerPiece "third").Everywhere ClassRecord.MapsSorted ∧
      ((outerPiece "first").extend middlePiece).extend (outerPiece "third") =
        (outerPiece "first").extend (middlePiece.extend (outerPiece "third")) ∧
      (ClassTemplate.extend ⟨outerPiece "first", []⟩ ⟨middlePiece, [.ofType "T"]⟩).extend
          ⟨outerPiece "third", []⟩ =
        ClassTemplate.extend ⟨outerPiece "first", []⟩
          (ClassTemplate.extend ⟨middlePiece, [.ofType "T"]⟩ ⟨outerPiece "third", []⟩) :=
  ⟨everywhere_middlePiece, everywhere_outerPiece,
    extend_assoc.1 _ _ _ everywhere_middlePiece everywhere_outerPiece,
    extend_assoc.2 ⟨outerPiece "first", []⟩ ⟨middlePiece, [.ofType "T"]⟩ ⟨outerPiece "third", []⟩
      everywhere_middlePiece everywhere_outerPiece⟩

end Pieces

end HeaderBinding
