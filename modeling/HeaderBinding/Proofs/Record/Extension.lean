import HeaderBinding.Proofs.Record.Grouping

/-!
# The Record of Two Declarations

What a class record holds once a second declaration of the class has been folded into it.

The folding goes through the members of the second declaration one after the other, and every one of
them is searched for in a list that the ones before it have changed. What comes of it can be read
off the two lists as they were. A member of the first declaration keeps its slot. If it is the first
of its key and the second declaration has the key as well, the slot holds the last record that the
second has for it, and otherwise what it held before. Keys that are new follow behind in the order
in which they first appear (`replaceOrAppend_fold`).

The equation `replaceOrAppend_cons` is the reason. The first member of a list settles everything
that comes in with its key, and the rest of the list sees the others only. It turns the search into
a recursion along the list that is searched, and each clause is an induction of its own.

Nested classes that both declarations have are folded in turn. So no member is lost at any depth,
neither of the first declaration nor of the second (`ClassRecord.KeptIn`).

## Main definitions

* `lastWith`: The last of some members with a key.
* `newNames`: The names that are not there yet, in the order of their first appearance.
* `MembersFold`: A list of members is one list folded into another.
* `Dict.MergeOf`: A map is two maps merged.
* `ClassRecord.FoldOf`: A class record is one record folded into another.
* `ClassRecord.KeptIn`: The members of a record are all in another, at every depth.

## Theorems

* `replaceOrAppend_cons`: The first member settles everything with its key.
* `replaceOrAppend_fold`: What becomes of members told apart by a key.
* `addBases_eq`: The bases of two declarations.
* `ClassRecord.keptIn_extend_left`, `ClassRecord.keptIn_extend_right`: No member is lost.
* `ClassRecord.extend_foldOf`: The record of two declarations.
-/

namespace HeaderBinding

section Names

/-- The names that are not there yet, each once, in the order of their first appearance. -/
def newNames (there incoming : List String) : List String :=
  (incoming.filter (· ∉ there)).eraseDups

theorem newNames_nil (there : List String) : newNames there [] = [] :=
  rfl

/-- A name that is there already brings nothing in. -/
theorem newNames_cons_of_mem (there : List String) {name : String} (rest : List String)
    (h : name ∈ there) : newNames there (name :: rest) = newNames there rest := by
  have hskip : ¬ decide (name ∉ there) = true := by
    rw [decide_eq_true_eq]
    exact not_not_intro h
  rw [newNames, List.filter_cons, if_neg hskip, newNames]

/-- A new name comes first, and is there for the names behind it. -/
theorem newNames_cons_of_not_mem (there : List String) {name : String} (rest : List String)
    (h : name ∉ there) :
    newNames there (name :: rest) = name :: newNames (there ++ [name]) rest := by
  rw [newNames, List.filter_cons, if_pos (decide_eq_true h), List.eraseDups_cons, newNames,
    List.filter_filter]
  congr 3
  funext other
  by_cases heq : other = name
  · simp only [heq, beq_self_eq_true, Bool.not_true, Bool.false_and, List.mem_append,
      List.mem_singleton, or_true, not_true_eq_false, decide_false]
  · simp only [beq_eq_false_iff_ne.mpr heq, Bool.not_false, Bool.true_and, List.mem_append,
      List.mem_singleton, heq, or_false]

/-- Only names that are not there are looked at. -/
theorem newNames_cons_there (there incoming : List String) (name : String) :
    newNames (name :: there) incoming = newNames there (incoming.filter (· ≠ name)) := by
  rw [newNames, newNames, List.filter_filter]
  congr 2
  funext other
  simp only [List.mem_cons, not_or, Bool.decide_and, Bool.and_comm, ne_eq]

theorem mem_newNames (there incoming : List String) (name : String) :
    name ∈ newNames there incoming ↔ name ∈ incoming ∧ name ∉ there := by
  rw [newNames, List.mem_eraseDups, List.mem_filter, decide_eq_true_eq]

/-- The names of two lists are there when those that are new have been added. -/
theorem mem_append_newNames (there incoming : List String) (name : String) :
    name ∈ there ++ newNames there incoming ↔ name ∈ there ∨ name ∈ incoming := by
  rw [List.mem_append, mem_newNames]
  by_cases hthere : name ∈ there
  · simp only [hthere, true_or]
  · simp only [hthere, false_or, not_false_eq_true, and_true]

/-- Distinct names stay distinct when new ones are added. -/
theorem nodup_append_newNames (there incoming : List String) (h : there.Nodup) :
    (there ++ newNames there incoming).Nodup := by
  induction incoming generalizing there with
  | nil => rwa [newNames_nil, List.append_nil]
  | cons name rest ih =>
      by_cases hthere : name ∈ there
      · rw [newNames_cons_of_mem there rest hthere]
        exact ih there h
      · have hnodup : (there ++ [name]).Nodup := by
          rw [← List.concat_eq_append, List.nodup_concat]
          exact ⟨hthere, h⟩
        rw [newNames_cons_of_not_mem there rest hthere, ← List.singleton_append,
          ← List.append_assoc]
        exact ih (there ++ [name]) hnodup

/-- The bases of two declarations are those of the first and the new ones of the second. -/
theorem addBases_eq (bases new : List String) :
    addBases bases new = bases ++ newNames bases new := by
  unfold addBases
  induction new generalizing bases with
  | nil => rw [newNames_nil, List.append_nil, List.foldl_nil]
  | cons base rest ih =>
      rw [List.foldl_cons]
      by_cases hthere : base ∈ bases
      · rw [if_pos (List.contains_iff_mem.mpr hthere), newNames_cons_of_mem bases rest hthere, ih]
      · rw [if_neg (fun h => hthere (List.contains_iff_mem.mp h)), ih,
          newNames_cons_of_not_mem bases rest hthere, List.append_assoc, List.singleton_append]

end Names

section Members

variable (key : Method → String)

/-- The last of some members with a key. -/
def lastWith (incoming : List Method) (name : String) : Option Method :=
  (incoming.filter (key · == name)).getLast?

theorem lastWith_cons (new : Method) (rest : List Method) (name : String) :
    lastWith key (new :: rest) name =
      (lastWith key rest name).or (if key new = name then some new else none) := by
  unfold lastWith
  by_cases hname : key new = name
  · rw [List.filter_cons, if_pos (beq_iff_eq.mpr hname), List.getLast?_cons, if_pos hname]
    cases (rest.filter (key · == name)).getLast? with
    | none => rfl
    | some last => rfl
  · rw [List.filter_cons, if_neg (fun h => hname (beq_iff_eq.mp h)), if_neg hname, Option.or_none]

/-- Members of other keys do not matter. -/
theorem lastWith_filter (incoming : List Method) {name other : String} (hne : name ≠ other) :
    lastWith key (incoming.filter (key · ≠ other)) name = lastWith key incoming name := by
  rw [lastWith, lastWith, List.filter_filter]
  congr 2
  funext m
  by_cases hname : key m = name
  · simp only [hname, beq_self_eq_true, hne, ne_eq, not_false_eq_true, decide_true, Bool.true_and]
  · simp only [beq_eq_false_iff_ne.mpr hname, Bool.false_and]

theorem lastWith_eq_none_iff (incoming : List Method) (name : String) :
    lastWith key incoming name = none ↔ name ∉ incoming.map key := by
  simp only [lastWith, List.getLast?_eq_none_iff, List.filter_eq_nil_iff, beq_iff_eq, List.mem_map,
    not_exists, not_and]

theorem key_of_lastWith (incoming : List Method) (name : String) (m : Method)
    (h : lastWith key incoming name = some m) : key m = name := by
  have hmem := List.mem_of_getLast? h
  rw [List.mem_filter, beq_iff_eq] at hmem
  exact hmem.2

theorem key_getD_lastWith (incoming : List Method) (m : Method) :
    key ((lastWith key incoming (key m)).getD m) = key m := by
  rcases hlast : lastWith key incoming (key m) with _ | last
  · rfl
  · exact key_of_lastWith key incoming (key m) last hlast

/-- The first member settles everything that comes in with its key. The members behind it see the
    rest. -/
theorem replaceOrAppend_cons (m : Method) (members incoming : List Method) :
    replaceOrAppend key (m :: members) incoming =
      (lastWith key incoming (key m)).getD m ::
        replaceOrAppend key members (incoming.filter (key · ≠ key m)) := by
  simp only [replaceOrAppend_eq_foldl]
  induction incoming generalizing m members with
  | nil => rfl
  | cons new rest ih =>
      rw [List.foldl_cons, takeIn_cons, lastWith_cons, List.filter_cons]
      by_cases hkey : key m = key new
      · -- The new one takes the place, until another with the key comes in.
        have hskip : ¬ decide (key new ≠ key m) = true := by
          rw [decide_eq_true_eq]
          exact not_not_intro hkey.symm
        rw [if_pos hkey, ih, if_pos hkey.symm, if_neg hskip, hkey]
        cases lastWith key rest (key new) with
        | none => rfl
        | some last => rfl
      · rw [if_neg hkey, ih, if_neg (Ne.symm hkey), Option.or_none,
          if_pos (decide_eq_true (Ne.symm hkey)), List.foldl_cons]

/-- Where nothing is there yet, every key stands once, with its last record. -/
theorem replaceOrAppend_nil (incoming : List Method) :
    replaceOrAppend key [] incoming =
      (newNames [] (incoming.map key)).filterMap (lastWith key incoming) := by
  -- All members with the first key go at once, so the induction is on the length.
  induction hlength : incoming.length using Nat.strongRecOn generalizing incoming with
  | _ n ih =>
      cases incoming with
      | nil => rfl
      | cons new rest =>
          have hshorter := List.length_filter_le (key · ≠ key new) rest
          rw [List.length_cons] at hlength
          have hrest := ih _ (by omega) (rest.filter (key · ≠ key new)) rfl
          have hfirst : lastWith key (new :: rest) (key new) =
              some ((lastWith key rest (key new)).getD new) := by
            rw [lastWith_cons, if_pos rfl]
            cases lastWith key rest (key new) with
            | none => rfl
            | some last => rfl
          have hothers : ∀ name ∈ newNames [key new] (rest.map key),
              lastWith key (rest.filter (key · ≠ key new)) name =
                lastWith key (new :: rest) name := by
            intro name hname
            have hne : name ≠ key new := fun h =>
              ((mem_newNames _ _ _).mp hname).2 (List.mem_singleton.mpr h)
            rw [lastWith_filter key rest hne, lastWith_cons, if_neg hne.symm, Option.or_none]
          calc replaceOrAppend key [] (new :: rest)
              = replaceOrAppend key [new] rest := rfl
            _ = (lastWith key rest (key new)).getD new ::
                  (newNames [key new] (rest.map key)).filterMap
                    (lastWith key (rest.filter (key · ≠ key new))) := by
                rw [replaceOrAppend_cons, hrest, newNames_cons_there, List.filter_map]
                rfl
            _ = (newNames [] ((new :: rest).map key)).filterMap
                  (lastWith key (new :: rest)) := by
                rw [List.filterMap_congr hothers, List.map_cons,
                  newNames_cons_of_not_mem [] _ List.not_mem_nil, List.nil_append,
                  List.filterMap_cons_some hfirst]

theorem map_key_replaceOrAppend (members incoming : List Method) :
    (replaceOrAppend key members incoming).map key =
      members.map key ++ newNames (members.map key) (incoming.map key) := by
  induction members generalizing incoming with
  | nil =>
      rw [replaceOrAppend_nil, List.map_filterMap, List.map_nil, List.nil_append]
      refine (List.filterMap_congr fun name hname => ?_).trans List.filterMap_some
      rcases hlast : lastWith key incoming name with _ | last
      · exact absurd ((mem_newNames _ _ _).mp hname).1
          ((lastWith_eq_none_iff key incoming name).mp hlast)
      · rw [Option.map_some, key_of_lastWith key incoming name last hlast]
  | cons m members ih =>
      rw [replaceOrAppend_cons, List.map_cons, key_getD_lastWith key incoming m, ih, List.map_cons,
        List.cons_append, newNames_cons_there, List.filter_map]
      rfl

/-- A list of members is one list folded into another. Every member keeps its slot, the first of a
    key holds the last record that comes in with the key, and the keys that are new follow. -/
structure MembersFold (members incoming result : List Method) : Prop where
  keys : result.map key = members.map key ++ newNames (members.map key) (incoming.map key)
  slots : ∀ slot m, members[slot]? = some m → result[slot]? =
    some (if key m ∈ (members.take slot).map key then m
      else (lastWith key incoming (key m)).getD m)
  added : result.drop members.length =
    (newNames (members.map key) (incoming.map key)).filterMap (lastWith key incoming)
  distinct : (members.map key).Nodup → (result.map key).Nodup

theorem getElem?_replaceOrAppend (members incoming : List Method) (slot : Nat) (m : Method)
    (h : members[slot]? = some m) :
    (replaceOrAppend key members incoming)[slot]? =
      some (if key m ∈ (members.take slot).map key then m
        else (lastWith key incoming (key m)).getD m) := by
  induction members generalizing incoming slot with
  | nil => exact absurd h (by simp only [List.getElem?_nil, reduceCtorEq, not_false_eq_true])
  | cons first members ih =>
      rw [replaceOrAppend_cons]
      cases slot with
      | zero =>
          rw [List.getElem?_cons_zero, Option.some.injEq] at h
          rw [List.getElem?_cons_zero, List.take_zero, List.map_nil, if_neg List.not_mem_nil, h]
      | succ slot =>
          rw [List.getElem?_cons_succ] at h
          rw [List.getElem?_cons_succ, ih _ slot h, List.take_succ_cons, List.map_cons]
          by_cases hkey : key m = key first
          · -- What comes in with the key has gone to the first member.
            have hnone : lastWith key (incoming.filter (key · ≠ key first)) (key m) = none := by
              rw [lastWith_eq_none_iff, hkey]
              intro hmem
              rcases List.mem_map.mp hmem with ⟨other, hother, heq⟩
              exact of_decide_eq_true (List.mem_filter.mp hother).2 heq
            rw [hnone, Option.getD_none, ite_self, if_pos (hkey ▸ List.mem_cons_self)]
          · rw [lastWith_filter key incoming hkey]
            simp only [List.mem_cons, hkey, false_or]

theorem drop_replaceOrAppend (members incoming : List Method) :
    (replaceOrAppend key members incoming).drop members.length =
      (newNames (members.map key) (incoming.map key)).filterMap (lastWith key incoming) := by
  induction members generalizing incoming with
  | nil => exact replaceOrAppend_nil key incoming
  | cons m members ih =>
      rw [replaceOrAppend_cons, List.length_cons, List.drop_succ_cons, ih, List.map_cons,
        newNames_cons_there, List.filter_map]
      refine List.filterMap_congr fun name hname => lastWith_filter key incoming ?_
      -- A name that comes in anew is not the key of the member in front.
      rcases List.mem_map.mp ((mem_newNames _ _ _).mp hname).1 with ⟨other, hother, rfl⟩
      exact of_decide_eq_true (List.mem_filter.mp hother).2

/-- Folding lists of members told apart by a key gives the one folded into the other. -/
theorem replaceOrAppend_fold (members incoming : List Method) :
    MembersFold key members incoming (replaceOrAppend key members incoming) where
  keys := map_key_replaceOrAppend key members incoming
  slots := getElem?_replaceOrAppend key members incoming
  added := drop_replaceOrAppend key members incoming
  distinct := nodup_replaceOrAppend key members incoming

variable {key} {members incoming result : List Method}

/-- The keys of both lists are there. -/
theorem MembersFold.mem_keys (h : MembersFold key members incoming result) (name : String) :
    name ∈ result.map key ↔ name ∈ members.map key ∨ name ∈ incoming.map key := by
  rw [h.keys, mem_append_newNames]

end Members

section Maps

variable {α : Type}

/-- A map is two maps merged. It has the names of both, and a name of both has the value folded from
    the two. -/
structure Dict.MergeOf (merged : Dict α) (f : α → α → α) (d e : Dict α) : Prop where
  keys : ∀ name, name ∈ merged.keys ↔ name ∈ d.keys ∨ name ∈ e.keys
  find? : ∀ name, merged.find? name = Option.merge f (d.find? name) (e.find? name)

theorem Dict.mergeWith_mergeOf (f : α → α → α) (d e : Dict α) (he : e.Sorted) :
    (d.mergeWith f e).MergeOf f d e :=
  ⟨d.mem_keys_mergeWith f e he, d.find?_mergeWith f e he⟩

theorem Dict.union_mergeOf (d e : Dict α) (he : e.Sorted) :
    (d.union e).MergeOf (fun _ later => later) d e := by
  rw [union_eq_mergeWith]
  exact d.mergeWith_mergeOf _ e he

end Maps

namespace ClassRecord

/-- A class record is one record folded into another, field by field. -/
structure FoldOf (c a b : ClassRecord) : Prop where
  name : c.name = a.name
  path : c.path = a.path
  comment : c.comment = joinComments a.comment b.comment
  isAbstract : c.isAbstract = (a.isAbstract || b.isAbstract)
  superclasses : c.superclasses = a.superclasses ++ newNames a.superclasses b.superclasses
  distinctBases : a.superclasses.Nodup → c.superclasses.Nodup
  methods : c.methods.MergeOf (fun _ later => later) a.methods b.methods
  staticMethods : c.staticMethods.MergeOf (fun _ later => later) a.staticMethods b.staticMethods
  constructors : MembersFold (·.fullName) a.constructors b.constructors c.constructors
  destructors : MembersFold (·.fullName) a.destructors b.destructors c.destructors
  operators : MembersFold (·.signatureKey) a.operators b.operators c.operators
  fields : c.fields = a.fields ++ b.fields
  innerClasses : c.innerClasses.MergeOf extend a.innerClasses b.innerClasses
  typedefs : c.typedefs.MergeOf (fun _ later => later) a.typedefs b.typedefs
  enums : c.enums = a.enums ++ b.enums

/-- Every member of a record is in another under its name or key, those of nested classes apart. -/
structure MembersIn (c d : ClassRecord) : Prop where
  superclasses : c.superclasses ⊆ d.superclasses
  methods : c.methods.keys ⊆ d.methods.keys
  staticMethods : c.staticMethods.keys ⊆ d.staticMethods.keys
  constructors : c.constructors.map (·.fullName) ⊆ d.constructors.map (·.fullName)
  destructors : c.destructors.map (·.fullName) ⊆ d.destructors.map (·.fullName)
  operators : c.operators.map (·.signatureKey) ⊆ d.operators.map (·.signatureKey)
  fields : c.fields ⊆ d.fields
  innerClasses : c.innerClasses.keys ⊆ d.innerClasses.keys
  typedefs : c.typedefs.keys ⊆ d.typedefs.keys
  enums : c.enums ⊆ d.enums

/-- Every member of a record is in another, and so are the members of its nested classes. -/
inductive KeptIn : ClassRecord → ClassRecord → Prop
  | mk (c d : ClassRecord) (here : c.MembersIn d)
    (nested : ∀ name x y, c.innerClasses.find? name = some x → d.innerClasses.find? name = some y →
      KeptIn x y) : KeptIn c d

section Extend

theorem extend_foldOf_of_mapsSorted (a b : ClassRecord) (hb : b.MapsSorted) :
    (a.extend b).FoldOf a b where
  name := a.name_extend b
  path := a.path_extend b
  comment := a.comment_extend b
  isAbstract := a.isAbstract_extend b
  superclasses := by rw [superclasses_extend, addBases_eq]
  distinctBases h := by
    rw [superclasses_extend, addBases_eq]
    exact nodup_append_newNames a.superclasses b.superclasses h
  methods := by
    rw [methods_extend]
    exact a.methods.union_mergeOf b.methods hb.methods
  staticMethods := by
    rw [staticMethods_extend]
    exact a.staticMethods.union_mergeOf b.staticMethods hb.staticMethods
  constructors := by
    rw [constructors_extend]
    exact replaceOrAppend_fold _ _ _
  destructors := by
    rw [destructors_extend]
    exact replaceOrAppend_fold _ _ _
  operators := by
    rw [operators_extend]
    exact replaceOrAppend_fold _ _ _
  fields := a.fields_extend b
  innerClasses := by
    rw [innerClasses_extend_eq_mergeWith]
    exact a.innerClasses.mergeWith_mergeOf extend b.innerClasses hb.innerClasses
  typedefs := by
    rw [typedefs_extend]
    exact a.typedefs.union_mergeOf b.typedefs hb.typedefs
  enums := a.enums_extend b

theorem FoldOf.membersIn_left {a b c : ClassRecord} (h : c.FoldOf a b) : a.MembersIn c where
  superclasses := h.superclasses ▸ List.subset_append_left _ _
  methods name hname := (h.methods.keys name).mpr (Or.inl hname)
  staticMethods name hname := (h.staticMethods.keys name).mpr (Or.inl hname)
  constructors name hname := (h.constructors.mem_keys name).mpr (Or.inl hname)
  destructors name hname := (h.destructors.mem_keys name).mpr (Or.inl hname)
  operators name hname := (h.operators.mem_keys name).mpr (Or.inl hname)
  fields := h.fields ▸ List.subset_append_left _ _
  innerClasses name hname := (h.innerClasses.keys name).mpr (Or.inl hname)
  typedefs name hname := (h.typedefs.keys name).mpr (Or.inl hname)
  enums := h.enums ▸ List.subset_append_left _ _

theorem FoldOf.membersIn_right {a b c : ClassRecord} (h : c.FoldOf a b) : b.MembersIn c where
  superclasses base hbase := by
    rw [h.superclasses, mem_append_newNames]
    exact Or.inr hbase
  methods name hname := (h.methods.keys name).mpr (Or.inr hname)
  staticMethods name hname := (h.staticMethods.keys name).mpr (Or.inr hname)
  constructors name hname := (h.constructors.mem_keys name).mpr (Or.inr hname)
  destructors name hname := (h.destructors.mem_keys name).mpr (Or.inr hname)
  operators name hname := (h.operators.mem_keys name).mpr (Or.inr hname)
  fields := h.fields ▸ List.subset_append_right _ _
  innerClasses name hname := (h.innerClasses.keys name).mpr (Or.inr hname)
  typedefs name hname := (h.typedefs.keys name).mpr (Or.inr hname)
  enums := h.enums ▸ List.subset_append_right _ _

theorem membersIn_refl (c : ClassRecord) : c.MembersIn c :=
  ⟨fun _ => id, fun _ => id, fun _ => id, fun _ => id, fun _ => id, fun _ => id, fun _ => id,
    fun _ => id, fun _ => id, fun _ => id⟩

theorem keptIn_refl (c : ClassRecord) : c.KeptIn c := by
  refine .mk c c c.membersIn_refl fun name x y hx hy => ?_
  have hmem := c.innerClasses.mem_of_find? name x hx
  rw [hx, Option.some.injEq] at hy
  subst hy
  exact keptIn_refl x
termination_by sizeOf c
decreasing_by
  have hentry := Dict.sizeOf_lt_of_mem hmem
  cases c
  simp only [mk.sizeOf_spec] at *
  omega

/-- Nothing of the record that is folded into is lost, at any depth. -/
theorem keptIn_extend_left (a b : ClassRecord) (hb : b.Everywhere MapsSorted) :
    a.KeptIn (a.extend b) := by
  induction hb generalizing a with
  | mk b here nested ih =>
      have hfold := a.extend_foldOf_of_mapsSorted b here
      refine .mk _ _ hfold.membersIn_left fun name x y hx hy => ?_
      rw [hfold.innerClasses.find? name, hx] at hy
      -- The nested class has been folded into, or is as it was.
      rcases hz : b.innerClasses.find? name with _ | z
      · rw [hz, Option.merge_none_right, Option.some.injEq] at hy
        exact hy ▸ x.keptIn_refl
      · rw [hz, Option.merge_some_some, Option.some.injEq] at hy
        exact hy ▸ ih _ (b.innerClasses.mem_of_find? name z hz) x

/-- Nothing of the record that is folded in is lost, at any depth. -/
theorem keptIn_extend_right (a b : ClassRecord) (hb : b.Everywhere MapsSorted) :
    b.KeptIn (a.extend b) := by
  induction hb generalizing a with
  | mk b here nested ih =>
      have hfold := a.extend_foldOf_of_mapsSorted b here
      refine .mk _ _ hfold.membersIn_right fun name z y hz hy => ?_
      rw [hfold.innerClasses.find? name, hz] at hy
      rcases hx : a.innerClasses.find? name with _ | x
      · rw [hx, Option.merge_none_left, Option.some.injEq] at hy
        exact hy ▸ z.keptIn_refl
      · rw [hx, Option.merge_some_some, Option.some.injEq] at hy
        exact hy ▸ ih _ (b.innerClasses.mem_of_find? name z hz) x

/-- The record of two declarations of a class is the second folded into the first, field by field.
    Nothing of either is lost at any depth, and maps in order stay in order. -/
theorem extend_foldOf (a b : ClassRecord) (hb : b.Everywhere MapsSorted) :
    (a.extend b).FoldOf a b ∧ a.KeptIn (a.extend b) ∧ b.KeptIn (a.extend b) ∧
      (a.MapsSorted → (a.extend b).MapsSorted) :=
  ⟨a.extend_foldOf_of_mapsSorted b hb.here, a.keptIn_extend_left b hb, a.keptIn_extend_right b hb,
    fun ha => ha.extend b⟩

end Extend

section Redeclared

/-- A constructor that is told apart from others of its spelling by the comment. -/
def spelledConstructor (fullName comment : String) : Method :=
  { name := "Shape", fullName, comment := some comment }

/-- A declaration with two constructors of one spelling, and a nested class. -/
def firstDeclaration : ClassRecord :=
  { name := "Shape"
    superclasses := ["Base"]
    constructors := [spelledConstructor "Shape()" "first", spelledConstructor "Shape()" "second",
      spelledConstructor "Shape(int)" "third"]
    innerClasses := ⟨[("Shape::Part", nestedPiece "first")]⟩ }

/-- A second one that repeats the first spelling twice, and a new one as well. -/
def secondDeclaration : ClassRecord :=
  { name := "Shape"
    superclasses := ["Mixin", "Base", "Mixin"]
    constructors := [spelledConstructor "Shape(bool)" "fourth",
      spelledConstructor "Shape()" "fifth", spelledConstructor "Shape(bool)" "sixth",
      spelledConstructor "Shape()" "seventh"]
    innerClasses := ⟨[("Shape::Kind", { name := "Shape::Kind" }),
      ("Shape::Part", nestedPiece "second")]⟩ }

theorem everywhere_secondDeclaration : secondDeclaration.Everywhere MapsSorted := by
  refine .mk _ ⟨by decide, by decide, by decide, by decide⟩ ?_
  refine List.forall_mem_cons.mpr ⟨?_, List.forall_mem_singleton.mpr ?_⟩
  all_goals
    exact .mk _ ⟨by decide, by decide, by decide, by decide⟩ (fun _ h => absurd h List.not_mem_nil)

theorem extend_foldOf_redeclared :
    secondDeclaration.Everywhere MapsSorted ∧
      (firstDeclaration.extend secondDeclaration).superclasses = ["Base", "Mixin"] ∧
      (firstDeclaration.extend secondDeclaration).constructors[0]? =
        some (spelledConstructor "Shape()" "seventh") ∧
      (firstDeclaration.extend secondDeclaration).constructors[1]? =
        some (spelledConstructor "Shape()" "second") ∧
      (firstDeclaration.extend secondDeclaration).constructors.drop 3 =
        [spelledConstructor "Shape(bool)" "sixth"] ∧
      (firstDeclaration.extend secondDeclaration).innerClasses.find? "Shape::Part" =
        some ((nestedPiece "first").extend (nestedPiece "second")) := by
  have hfold := extend_foldOf firstDeclaration secondDeclaration everywhere_secondDeclaration
  refine ⟨everywhere_secondDeclaration, ?_, ?_, ?_, ?_, ?_⟩
  · exact hfold.1.superclasses.trans (by decide)
  · exact (hfold.1.constructors.slots 0 _ rfl).trans (by decide)
  · exact (hfold.1.constructors.slots 1 _ rfl).trans (by decide)
  · exact hfold.1.constructors.added.trans (by decide)
  · exact (hfold.1.innerClasses.find? "Shape::Part").trans rfl

end Redeclared

end ClassRecord

end HeaderBinding
