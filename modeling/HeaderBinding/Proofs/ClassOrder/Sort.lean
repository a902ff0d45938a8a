import HeaderBinding.Proofs.ClassOrder.Levels
import Mathlib.Data.Fintype.Card
import Mathlib.Data.Set.Finite.List

/-!
# Sorting the Classes

When the classes of a module can be put into an order with bases first, and which cannot be placed
if not.

The loop works on positions, and the classes it places are those that are accessible along the
bases. A statement about a module should not mention positions. As long as no two classes share a
name, positions and names come to the same, and `BaseName` carries the relation over: a superclass
that a class names, and that is itself the name of a class.

Being accessible is what two runs over differently ordered lists have in common. Having no cycle is
what a reader expects to be asked for. On finitely many classes `wellFounded_iff_acyclic` makes the
two the same.

## Main definitions

* `BaseName`: One class name is a superclass of another, among given classes.
* `BasesFirst`: Every class of a list stands behind its bases.

## Theorems

* `wellFounded_iff_acyclic`: On finitely many things, a relation without cycles is well-founded.
* `ClassGraph.topologicalOrder_eq_ok`: The order, if every class is accessible.
* `ClassGraph.topologicalOrder_eq_error`: The classes that cannot be placed otherwise.
* `acc_isBase_iff`: Positions and names agree on what is accessible.
* `sortClasses_eq_ok`: Sorting succeeds, with bases first.
* `sortClasses_eq_error`: Sorting fails, with the names that cannot be placed.
-/

namespace HeaderBinding

/-- A relation that lives on finitely many things is well-founded if and only if it has no
    cycle. -/
theorem wellFounded_iff_acyclic {α : Type} (r : α → α → Prop) (s : List α)
    (hs : ∀ a b, r a b → a ∈ s ∧ b ∈ s) :
    WellFounded r ↔ ∀ a, ¬ Relation.TransGen r a a := by
  constructor
  · intro hwf a hcycle
    exact hwf.transGen.asymmetric a a hcycle hcycle
  · intro hacyclic
    -- The paths make a transitive relation, and on finitely many things that one is well-founded.
    have hfinite : Finite {a // a ∈ s} := List.finite_toSet s
    have htrans : IsTrans {a // a ∈ s} fun a b => Relation.TransGen r a.1 b.1 :=
      ⟨fun _ _ _ => Relation.TransGen.trans⟩
    have hirrefl : Std.Irrefl fun a b : {a // a ∈ s} => Relation.TransGen r a.1 b.1 :=
      ⟨fun a => hacyclic a.1⟩
    have hwf := Finite.wellFounded_of_trans_of_irrefl
      fun a b : {a // a ∈ s} => Relation.TransGen r a.1 b.1
    have hacc : ∀ a : {a // a ∈ s}, Acc r a.1 := by
      intro a
      induction a using hwf.induction with
      | _ a ih =>
          exact Acc.intro a.1 (fun b hb => ih ⟨b, (hs b a.1 hb).1⟩ (Relation.TransGen.single hb))
    exact ⟨fun a => Acc.intro a (fun b hb => hacc ⟨b, (hs b a hb).1⟩)⟩

namespace ClassGraph

/-- If every class is accessible, all are placed, each once. -/
theorem finish_order_perm (g : ClassGraph) (h : g.WellFormed)
    (hacc : ∀ i < g.size, Acc g.IsBase i) : g.finish.order.Perm (List.range g.size) := by
  have hnodup := (List.nodup_append.mp (finish_invariant g h).nodup).1
  rw [List.perm_ext_iff_of_nodup hnodup List.nodup_range]
  intro i
  rw [mem_finish_iff g h, List.mem_range]
  exact ⟨fun hi => hi.1, fun hi => ⟨hi, hacc i hi⟩⟩

theorem topologicalOrder_eq_ok (g : ClassGraph) (h : g.WellFormed)
    (hacc : ∀ i < g.size, Acc g.IsBase i) : g.topologicalOrder = .ok g.finish.order := by
  have hlength := (finish_order_perm g h hacc).length_eq
  rw [List.length_range] at hlength
  unfold topologicalOrder
  rw [if_pos hlength]

/-- If some class is not accessible, the names of all such classes are given in the order of the
    input. -/
theorem topologicalOrder_eq_error (g : ClassGraph) (h : g.WellFormed)
    (hacc : ¬ ∀ i < g.size, Acc g.IsBase i) :
    ∃ stuck : List Nat, g.topologicalOrder = .error (stuck.map g.nameAt) ∧
      stuck.Sublist (List.range g.size) ∧ ∀ i, i ∈ stuck ↔ i < g.size ∧ ¬ Acc g.IsBase i := by
  have hinv := finish_invariant g h
  have hshort : g.finish.order.length ≠ g.size := by
    intro hlength
    refine hacc (fun i hi => ((mem_finish_iff g h i).mp ?_).2)
    -- As many distinct classes as there are must be all of them.
    have hsub : g.finish.order.Subperm (List.range g.size) :=
      List.subperm_of_subset (List.nodup_append.mp hinv.nodup).1
        (fun j hj => List.mem_range.mpr ((mem_finish_iff g h j).mp hj).1)
    have hperm := hsub.perm_of_length_le (by rw [List.length_range, hlength])
    exact hperm.mem_iff.mpr (List.mem_range.mpr hi)
  refine ⟨_, by unfold topologicalOrder; rw [if_neg hshort], List.filter_sublist, fun i => ?_⟩
  rw [List.mem_filter, List.mem_range, decide_eq_true_eq]
  refine and_congr_right (fun hi => ?_)
  have hplaced : (∃ base ∈ g.basesAt i, base ∉ g.finish.order) ↔ i ∉ g.finish.order := by
    rw [mem_finish_iff_bases g h i]
    simp only [hi, true_and, not_forall, exists_prop]
  rw [Array.getD_eq_getD_getElem?, hinv.remaining i hi, Option.getD_some, List.countP_pos_iff]
  simp only [decide_eq_true_eq]
  rw [hplaced, mem_finish_iff g h]
  simp only [hi, true_and]

end ClassGraph

/-- The name `base` is a superclass that the class `derived` names, and one of the classes bears
    it. -/
def BaseName (classes : List ClassRecord) (base derived : String) : Prop :=
  base ∈ classes.map (·.name) ∧ ∃ c ∈ classes, c.name = derived ∧ base ∈ c.superclasses

/-- Every class of a list stands behind the classes that its superclasses name. -/
def BasesFirst (classes : List ClassRecord) : Prop :=
  ∀ (i j : Nat) (derived base : ClassRecord), classes[i]? = some derived →
    classes[j]? = some base → base.name ∈ derived.superclasses → j < i

theorem baseName_mem (classes : List ClassRecord) (base derived : String)
    (h : BaseName classes base derived) :
    base ∈ classes.map (·.name) ∧ derived ∈ classes.map (·.name) := by
  rcases h with ⟨hbase, c, hc, hname, _⟩
  exact ⟨hbase, List.mem_map.mpr ⟨c, hc, hname⟩⟩

/-- Which classes derive from which does not depend on the order in which they are listed. -/
theorem baseName_of_perm (classes other : List ClassRecord) (h : classes.Perm other) :
    BaseName classes = BaseName other := by
  funext base derived
  simp only [BaseName, (h.map (·.name)).mem_iff, h.mem_iff]

/-- Every class is accessible if and only if no class is a base of itself, directly or through
    others. -/
theorem forall_acc_baseName_iff (classes : List ClassRecord) :
    (∀ c ∈ classes, Acc (BaseName classes) c.name) ↔
      ∀ name, ¬ Relation.TransGen (BaseName classes) name name := by
  rw [← wellFounded_iff_acyclic _ _ (baseName_mem classes)]
  constructor
  · intro hacc
    refine ⟨fun derived => Acc.intro derived (fun base hbase => ?_)⟩
    rcases List.mem_map.mp (baseName_mem classes base derived hbase).1 with ⟨c, hc, hname⟩
    rw [← hname]
    exact hacc c hc
  · intro hwf c _
    exact hwf.apply c.name

section DistinctNames

variable (classes : List ClassRecord) (hnodup : (classes.map (·.name)).Nodup)
include hnodup

/-- With distinct names a superclass stands for the one class of that name. -/
theorem isBase_ofClasses_iff (base derived : Nat) :
    (ClassGraph.ofClasses classes).IsBase base derived ↔
      ∃ b c, classes[base]? = some b ∧ classes[derived]? = some c ∧ b.name ∈ c.superclasses := by
  rw [ClassGraph.IsBase, ClassGraph.mem_basesAt_ofClasses]
  constructor
  · rintro ⟨c, hc, name, hname, hbase, _⟩
    rw [List.getElem?_map, Option.map_eq_some_iff] at hbase
    rcases hbase with ⟨b, hb, hbname⟩
    exact ⟨b, c, hb, hc, by rw [hbname]; exact hname⟩
  · rintro ⟨b, c, hb, hc, hname⟩
    have hget : (classes.map (·.name))[base]? = some b.name := by
      rw [List.getElem?_map, hb, Option.map_some]
    refine ⟨c, hc, b.name, hname, hget, fun later hlt hlater => ?_⟩
    have heq := slot_unique _ hnodup base later b.name hget hlater
    omega

/-- Positions and names agree on what is accessible. -/
theorem acc_isBase_iff (position : Nat) (c : ClassRecord) (hc : classes[position]? = some c) :
    Acc (ClassGraph.ofClasses classes).IsBase position ↔ Acc (BaseName classes) c.name := by
  constructor
  · intro hacc
    induction hacc generalizing c with
    | intro position _ ih =>
        refine Acc.intro c.name (fun base hbase => ?_)
        rcases hbase with ⟨hmem, d, hd, hdname, hsuper⟩
        rcases List.mem_map.mp hmem with ⟨b, hb, hbname⟩
        rcases List.mem_iff_getElem?.mp hb with ⟨j, hj⟩
        -- The deriving class is the one at this position, there being no other of its name.
        have hdc : d = c := List.inj_on_of_nodup_map hnodup hd (List.mem_of_getElem? hc) hdname
        rw [← hbname]
        refine ih j ((isBase_ofClasses_iff classes hnodup j position).mpr
          ⟨b, c, hj, hc, ?_⟩) b hj
        rw [hbname, ← hdc]
        exact hsuper
  · -- Each base of a position bears a base name of its name, so accessibility comes back with it.
    intro hacc
    have hname : (ClassGraph.ofClasses classes).nameAt position = c.name :=
      ClassGraph.nameAt_ofClasses classes position c hc
    rw [← hname] at hacc
    refine Subrelation.accessible (fun {base derived} hbase => ?_)
      (InvImage.accessible (ClassGraph.ofClasses classes).nameAt hacc)
    rcases (isBase_ofClasses_iff classes hnodup base derived).mp hbase with ⟨b, d, hb, hd, hsuper⟩
    rw [InvImage, ClassGraph.nameAt_ofClasses classes base b hb,
      ClassGraph.nameAt_ofClasses classes derived d hd]
    exact ⟨List.mem_map.mpr ⟨b, List.mem_of_getElem? hb, rfl⟩, d, List.mem_of_getElem? hd, rfl,
      hsuper⟩

theorem forall_acc_isBase_iff :
    (∀ i < (ClassGraph.ofClasses classes).size, Acc (ClassGraph.ofClasses classes).IsBase i) ↔
      ∀ c ∈ classes, Acc (BaseName classes) c.name := by
  rw [ClassGraph.size_ofClasses]
  constructor
  · intro hacc c hc
    rcases List.mem_iff_getElem?.mp hc with ⟨i, hi⟩
    exact (acc_isBase_iff classes hnodup i c hi).mp
      (hacc i (List.getElem?_eq_some_iff.mp hi).1)
  · intro hacc i hi
    have hget := List.getElem?_eq_getElem hi
    exact (acc_isBase_iff classes hnodup i _ hget).mpr (hacc _ (List.mem_of_getElem? hget))

/-- Classes without a cycle among them are put into an order with bases first. -/
theorem sortClasses_eq_ok (hacc : ∀ c ∈ classes, Acc (BaseName classes) c.name) :
    ∃ sorted, sortClasses classes = .ok sorted ∧ sorted.Perm classes ∧ BasesFirst sorted := by
  have hwf := ClassGraph.wellFormed_ofClasses classes
  have haccAt := (forall_acc_isBase_iff classes hnodup).mpr hacc
  have hperm := ClassGraph.finish_order_perm _ hwf haccAt
  have hinv := ClassGraph.finish_invariant _ hwf
  rw [ClassGraph.size_ofClasses] at hperm
  have hsome : ∀ i ∈ (ClassGraph.ofClasses classes).finish.order, (classes[i]?).isSome := by
    intro i hi
    rw [List.getElem?_eq_getElem (List.mem_range.mp (hperm.mem_iff.mp hi))]
    rfl
  refine ⟨(ClassGraph.ofClasses classes).finish.order.filterMap fun i => classes[i]?, ?_, ?_, ?_⟩
  · rw [sortClasses, ClassGraph.topologicalOrder_eq_ok _ hwf haccAt]
    simp only [List.getElem?_toArray]
    rfl
  · have hall := hperm.filterMap fun i => classes[i]?
    rw [filterMap_range_getElem?] at hall
    exact hall
  · -- A place in the sorted list is a place in the order of positions.
    intro i j derived base hi hj hsuper
    rw [getElem?_filterMap_of_isSome _ _ hsome, Option.bind_eq_some_iff] at hi hj
    rcases hi with ⟨d, hd, hderived⟩
    rcases hj with ⟨b, hb, hbase⟩
    have hnodupOrder := (List.nodup_append.mp hinv.nodup).1
    have hlt := hinv.bases_first d (List.mem_of_getElem? hd) b
      ((isBase_ofClasses_iff classes hnodup b d).mpr ⟨base, derived, hbase, hderived, hsuper⟩)
    rw [List.getElem?_eq_some_iff] at hd hb
    rcases hd with ⟨hdlt, hdget⟩
    rcases hb with ⟨hblt, hbget⟩
    rw [← hdget, ← hbget, hnodupOrder.idxOf_getElem, hnodupOrder.idxOf_getElem] at hlt
    exact hlt

/-- Otherwise the names of exactly those classes are given that have no end to their bases. -/
theorem sortClasses_eq_error (hacc : ¬ ∀ c ∈ classes, Acc (BaseName classes) c.name) :
    ∃ stuck, sortClasses classes = .error stuck ∧
      ∀ name, name ∈ stuck ↔ name ∈ classes.map (·.name) ∧ ¬ Acc (BaseName classes) name := by
  have hwf := ClassGraph.wellFormed_ofClasses classes
  rcases ClassGraph.topologicalOrder_eq_error _ hwf
    (fun hc => hacc ((forall_acc_isBase_iff classes hnodup).mp hc)) with ⟨stuck, herror, _, hmem⟩
  refine ⟨_, by rw [sortClasses, herror]; rfl, fun name => ?_⟩
  rw [List.mem_map]
  -- Positions and names go over into each other, once in each direction.
  constructor
  · rintro ⟨i, hi, hname⟩
    rcases (hmem i).mp hi with ⟨hlt, hnot⟩
    rw [ClassGraph.size_ofClasses] at hlt
    have hget := List.getElem?_eq_getElem hlt
    rw [ClassGraph.nameAt_ofClasses classes i _ hget] at hname
    rw [acc_isBase_iff classes hnodup i _ hget, hname] at hnot
    exact ⟨List.mem_map.mpr ⟨_, List.mem_of_getElem? hget, hname⟩, hnot⟩
  · rintro ⟨hname, hnot⟩
    rcases List.mem_map.mp hname with ⟨c, hc, hcname⟩
    rcases List.mem_iff_getElem?.mp hc with ⟨i, hi⟩
    refine ⟨i, (hmem i).mpr ⟨?_, ?_⟩, ?_⟩
    · rw [ClassGraph.size_ofClasses]
      exact (List.getElem?_eq_some_iff.mp hi).1
    · rw [acc_isBase_iff classes hnodup i c hi, hcname]
      exact hnot
    · rw [ClassGraph.nameAt_ofClasses classes i c hi, hcname]

end DistinctNames

end HeaderBinding
