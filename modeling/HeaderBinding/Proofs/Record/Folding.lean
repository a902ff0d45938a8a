import HeaderBinding.Proofs.Dict
import HeaderBinding.Record.Merge
import Mathlib.Data.List.Nodup

/-!
# Folded Records

What folding a second declaration into a class keeps.

A list of members told apart by a key is folded member by member, each in the place of the first
with its key or else at the end. The keys of the list stay what they were but for new ones at its
end, so distinct keys stay distinct whatever is folded in.

Nested classes are folded in turn, and so at every depth. `ClassRecord.Everywhere` says that
something holds of a record and of all records nested in it. `Everywhere.extend` reduces it to one
level. If folding keeps a property of records of one name, it keeps it everywhere. One thing is
needed for that. Nested classes have to be filed under their own names (`ClassRecord.Keyed`), or
else records of different names would be folded into each other further down.

## Main definitions

* `ClassRecord.Everywhere`: A record and all records nested in it have a property.
* `ClassRecord.Keyed`: Nested classes are filed under their own names.

## Theorems

* `replaceFirst_getD_spec`: One member folded into a list.
* `forall_replaceOrAppend`, `nodup_replaceOrAppend`: Members told apart by a key.
* `ClassRecord.innerClasses_extend`: Folding the nested classes, one after the other.
* `ClassRecord.Everywhere.of_innerClasses_eq`: A change that leaves the nested classes alone.
* `ClassRecord.Everywhere.extend`: Folding keeps a property at every depth.
-/

namespace HeaderBinding

section Replacing

variable (key : Method → String) (new : Method)

theorem replaceFirst_eq_none_iff (members : List Method) :
    replaceFirst key new members = none ↔ key new ∉ members.map key := by
  induction members with
  | nil => exact iff_of_true rfl List.not_mem_nil
  | cons m ms ih =>
      unfold replaceFirst
      rw [List.map_cons, List.mem_cons, not_or]
      by_cases hkey : key m = key new
      · simp only [hkey, if_true, reduceCtorEq, not_true_eq_false, false_and]
      · simp only [hkey, Ne.symm hkey, if_false, Option.map_eq_none_iff, ih, not_false_eq_true,
          true_and]

/-- A member takes the place of one with its key, so the keys stay. -/
theorem map_key_replaceFirst (members replaced : List Method)
    (h : replaceFirst key new members = some replaced) :
    replaced.map key = members.map key ∧ ∀ m ∈ replaced, m = new ∨ m ∈ members := by
  induction members generalizing replaced with
  | nil => exact absurd h (by simp only [replaceFirst, reduceCtorEq, not_false_eq_true])
  | cons m ms ih =>
      unfold replaceFirst at h
      by_cases hkey : key m = key new
      · rw [if_pos hkey, Option.some.injEq] at h
        subst h
        refine ⟨by rw [List.map_cons, List.map_cons, hkey], fun a ha => ?_⟩
        exact (List.mem_cons.mp ha).imp_right (List.mem_cons_of_mem _)
      · rw [if_neg hkey, Option.map_eq_some_iff] at h
        rcases h with ⟨rest, hrest, rfl⟩
        rcases ih rest hrest with ⟨hkeys, hmem⟩
        refine ⟨by rw [List.map_cons, List.map_cons, hkeys], fun a ha => ?_⟩
        rcases List.mem_cons.mp ha with rfl | ha
        · exact Or.inr (List.mem_cons_self ..)
        · exact (hmem a ha).imp_right (List.mem_cons_of_mem _)

/-- One member folded in: it takes the place of another or a new one at the end. -/
theorem replaceFirst_getD_spec (members : List Method) :
    (∀ m ∈ (replaceFirst key new members).getD (members ++ [new]), m = new ∨ m ∈ members) ∧
      ((members.map key).Nodup →
        (((replaceFirst key new members).getD (members ++ [new])).map key).Nodup) := by
  rcases hreplace : replaceFirst key new members with _ | replaced
  · -- A key that nothing can be replaced under is new.
    rw [replaceFirst_eq_none_iff] at hreplace
    rw [Option.getD_none]
    refine ⟨fun m hm => ?_, fun hnodup => ?_⟩
    · rw [List.mem_append, List.mem_singleton] at hm
      exact hm.symm
    · rw [List.map_append, List.map_singleton, ← List.concat_eq_append, List.nodup_concat]
      exact ⟨hreplace, hnodup⟩
  · rcases map_key_replaceFirst key new members replaced hreplace with ⟨hkeys, hmem⟩
    rw [Option.getD_some, hkeys]
    exact ⟨hmem, id⟩

variable (members incoming : List Method)

/-- What holds of all members, old and incoming, holds of all of them after folding. -/
theorem forall_replaceOrAppend (p : Method → Prop) (hmembers : ∀ m ∈ members, p m)
    (hincoming : ∀ m ∈ incoming, p m) : ∀ m ∈ replaceOrAppend key members incoming, p m := by
  unfold replaceOrAppend
  induction incoming generalizing members with
  | nil => exact hmembers
  | cons new rest ih =>
      rw [List.forall_mem_cons] at hincoming
      refine ih _ (fun m hm => ?_) hincoming.2
      rcases (replaceFirst_getD_spec key new members).1 m hm with rfl | hold
      · exact hincoming.1
      · exact hmembers m hold

/-- Distinct keys stay distinct, whatever is folded in. -/
theorem nodup_replaceOrAppend (h : (members.map key).Nodup) :
    ((replaceOrAppend key members incoming).map key).Nodup := by
  unfold replaceOrAppend
  induction incoming generalizing members with
  | nil => exact h
  | cons new rest ih => exact ih _ ((replaceFirst_getD_spec key new members).2 h)

end Replacing

namespace ClassRecord

section Extend

variable (c other : ClassRecord)

/-- The name of a class record is its own, whatever is folded into it. -/
theorem name_extend : (c.extend other).name = c.name := by
  rw [extend]

theorem comment_extend :
    (c.extend other).comment = joinComments c.comment other.comment := by
  rw [extend]

/-- So is its path. -/
theorem path_extend : (c.extend other).path = c.path := by
  rw [extend]

theorem isAbstract_extend :
    (c.extend other).isAbstract = (c.isAbstract || other.isAbstract) := by
  rw [extend]

theorem superclasses_extend :
    (c.extend other).superclasses = addBases c.superclasses other.superclasses := by
  rw [extend]

theorem methods_extend : (c.extend other).methods = c.methods.union other.methods := by
  rw [extend]

theorem staticMethods_extend :
    (c.extend other).staticMethods = c.staticMethods.union other.staticMethods := by
  rw [extend]

theorem constructors_extend : (c.extend other).constructors =
    replaceOrAppend (·.fullName) c.constructors other.constructors := by
  rw [extend]

theorem destructors_extend : (c.extend other).destructors =
    replaceOrAppend (·.fullName) c.destructors other.destructors := by
  rw [extend]

theorem operators_extend : (c.extend other).operators =
    replaceOrAppend (·.signatureKey) c.operators other.operators := by
  rw [extend]

theorem fields_extend : (c.extend other).fields = c.fields ++ other.fields := by
  rw [extend]

theorem typedefs_extend : (c.extend other).typedefs = c.typedefs.union other.typedefs := by
  rw [extend]

theorem enums_extend : (c.extend other).enums = c.enums ++ other.enums := by
  rw [extend]

/-- Nested classes are folded one after the other, each into the one filed under its name. -/
theorem innerClasses_extend : (c.extend other).innerClasses =
    other.innerClasses.entries.foldl (fun inner entry =>
      inner.insert entry.1 (match inner.find? entry.1 with
        | some first => first.extend entry.2
        | none => entry.2)) c.innerClasses := by
  rw [extend]
  exact List.foldl_attach (f := fun (inner : Dict ClassRecord) (entry : String × ClassRecord) =>
    inner.insert entry.1 (match inner.find? entry.1 with
      | some first => first.extend entry.2
      | none => entry.2))

end Extend

/-- A record and all records nested in it have a property. -/
inductive Everywhere (P : ClassRecord → Prop) : ClassRecord → Prop
  | mk (c : ClassRecord) (here : P c)
    (nested : ∀ entry ∈ c.innerClasses.entries, Everywhere P entry.2) : Everywhere P c

section Everywhere

variable {P Q : ClassRecord → Prop} {c d : ClassRecord}

theorem Everywhere.here (h : Everywhere P c) : P c := by
  cases h with
  | mk _ here _ => exact here

theorem Everywhere.nested (h : Everywhere P c) :
    ∀ entry ∈ c.innerClasses.entries, Everywhere P entry.2 := by
  cases h with
  | mk _ _ nested => exact nested

theorem Everywhere.imp (h : Everywhere P c) (hPQ : ∀ c, P c → Q c) : Everywhere Q c := by
  induction h with
  | mk c here _ ih => exact Everywhere.mk c (hPQ c here) ih

/-- What every record has, every record has everywhere. -/
theorem everywhere_of_forall (h : ∀ c, P c) (c : ClassRecord) : Everywhere P c :=
  .mk c (h c) fun entry _ => everywhere_of_forall h entry.2
termination_by sizeOf c
decreasing_by
  rename_i hentry
  have hsize := Dict.sizeOf_lt_of_mem hentry
  cases c
  simp only [mk.sizeOf_spec] at *
  omega

/-- A change that leaves the nested classes alone only has to keep the property at the top. -/
theorem Everywhere.of_innerClasses_eq (h : Everywhere P c) (hd : P d)
    (hinner : d.innerClasses = c.innerClasses) : Everywhere P d := by
  refine Everywhere.mk d hd ?_
  rw [hinner]
  exact h.nested

/-- Nested classes are filed under their own names. -/
def Keyed (c : ClassRecord) : Prop :=
  ∀ entry ∈ c.innerClasses.entries, entry.1 = entry.2.name

/-- A nested class that can be folded into any other of its name. -/
def Foldable (P : ClassRecord → Prop) (name : String) (new : ClassRecord) : Prop :=
  name = new.name ∧ Everywhere P new ∧
    ∀ first, Everywhere P first → new.name = first.name → Everywhere P (first.extend new)

/-- Folding nested classes one after the other, each into the one filed under its name. -/
theorem forall_foldl_inner (entries : List (String × ClassRecord)) (inner : Dict ClassRecord)
    (hinner : ∀ entry ∈ inner.entries, entry.1 = entry.2.name ∧ Everywhere P entry.2)
    (hentries : ∀ entry ∈ entries, Foldable P entry.1 entry.2) :
    ∀ entry ∈ (entries.foldl (fun inner entry =>
      inner.insert entry.1 (match inner.find? entry.1 with
        | some first => first.extend entry.2
        | none => entry.2)) inner).entries, entry.1 = entry.2.name ∧ Everywhere P entry.2 := by
  induction entries generalizing inner with
  | nil => exact hinner
  | cons new rest ih =>
      rw [List.forall_mem_cons] at hentries
      rcases hentries with ⟨⟨hname, hnew, hextend⟩, hrest⟩
      refine ih _ (inner.forall_insert _ _ hinner ?_) hrest
      rcases hfind : inner.find? new.1 with _ | first
      · exact ⟨hname, hnew⟩
      · -- What was filed under the name bears it.
        rcases hinner _ (inner.mem_of_find? new.1 first hfind) with ⟨hfirst, heverywhere⟩
        exact ⟨hfirst.trans (first.name_extend new.2).symm,
          hextend first heverywhere (hname.symm.trans hfirst)⟩

/-- Folding records of one name keeps a property everywhere, if it keeps it at the top. -/
theorem Everywhere.extend
    (hextend : ∀ c d, P c → P d → d.name = c.name → (c.extend d).Keyed → P (c.extend d))
    (hc : Everywhere (fun c => c.Keyed ∧ P c) c) (hd : Everywhere (fun c => c.Keyed ∧ P c) d)
    (hname : d.name = c.name) : Everywhere (fun c => c.Keyed ∧ P c) (c.extend d) := by
  -- Induction on the record that is folded in, since folding goes down along its nested classes.
  induction hd generalizing c with
  | mk d here nested ih =>
      have hinner : ∀ entry ∈ (c.extend d).innerClasses.entries,
          entry.1 = entry.2.name ∧ Everywhere (fun c => c.Keyed ∧ P c) entry.2 := by
        rw [innerClasses_extend]
        refine forall_foldl_inner _ _ (fun entry hentry => ?_) (fun entry hentry => ?_)
        · exact ⟨hc.here.1 entry hentry, hc.nested entry hentry⟩
        · exact ⟨here.1 entry hentry, nested entry hentry,
            fun first hfirst hsame => ih entry hentry hfirst hsame⟩
      have hkeyed : (c.extend d).Keyed := fun entry hentry => (hinner entry hentry).1
      exact Everywhere.mk _ ⟨hkeyed, hextend c d hc.here.2 here.2 hname hkeyed⟩
        fun entry hentry => (hinner entry hentry).2

end Everywhere

end ClassRecord

end HeaderBinding
