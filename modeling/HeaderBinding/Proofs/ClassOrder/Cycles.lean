import HeaderBinding.Proofs.ClassOrder.LevelOrder

/-!
# Classes That Cannot Be Placed

Which classes are named when the classes of a module have no order.

The loop knows nothing of cycles. It names what its counters have left over, and that may be a class
far from any cycle which only derives, through others, from a class on one. A class without an end
to its chains of bases is exactly such a class (`acc_iff_not_restsOnCycle`). One direction goes down
the chains. In the other, the classes below one that rests on no cycle are finitely many and have no
cycle among them, so all chains below it end.

Every class that is left out of the list has a place in some legal order, in which nothing stands
before its bases. The loop has found one by the time it stops (`ClassGraph.legalOrder_finish`). A
legal order may be short. It does not have to hold all classes, but it holds all that its classes
derive from, and so none of those that are named.

## Main definitions

* `RestsOnCycle`: A class lies on a cycle or derives from a class that does.
* `LegalOrder`: A list of classes in which each stands behind its bases.

## Theorems

* `acc_iff_not_restsOnCycle`: Chains of bases end unless they lead to a cycle.
* `LegalOrder.acc`: They end below a class with a place in a legal order.
* `ClassGraph.exists_legalOrder_iff`: The classes with such a place.
* `sortClasses_unplaced`: The classes that are named if there is no order.
-/

namespace HeaderBinding

/-- A class rests on a cycle if it lies on one, or if a chain of bases leads from it to a class that
    does. -/
def RestsOnCycle (isBase : Nat → Nat → Prop) (i : Nat) : Prop :=
  Relation.TransGen isBase i i ∨
    ∃ j, Relation.TransGen isBase j j ∧ Relation.TransGen isBase j i

/-- A list of classes, none of them twice, each of which stands behind all its bases. -/
structure LegalOrder (isBase : Nat → Nat → Prop) (order : List Nat) : Prop where
  nodup : order.Nodup
  bases_first : ∀ place derived : Nat, order[place]? = some derived →
    ∀ base, isBase base derived → ∃ earlier < place, order[earlier]? = some base

section Chains

variable {isBase : Nat → Nat → Prop}

/-- A cycle would stand below itself. -/
theorem not_transGen_self_of_acc (i : Nat) (h : Acc isBase i) :
    ¬ Relation.TransGen isBase i i := by
  have hacc := h.transGen
  clear h
  induction hacc with
  | intro i _ ih =>
      intro hcycle
      exact ih i hcycle hcycle

/-- Among finitely many classes, all chains below one come to an end unless it rests on a cycle. -/
theorem acc_iff_not_restsOnCycle (classes : List Nat)
    (hclasses : ∀ base derived, isBase base derived → base ∈ classes ∧ derived ∈ classes)
    (i : Nat) : Acc isBase i ↔ ¬ RestsOnCycle isBase i := by
  constructor
  · rintro hacc (hcycle | ⟨j, hcycle, hbelow⟩)
    · exact not_transGen_self_of_acc i hacc hcycle
    · exact not_transGen_self_of_acc j (hacc.inv_of_transGen hbelow) hcycle
  · intro hfree
    -- Only bases at or below the class matter, and there is no cycle among those.
    have hwf : WellFounded fun base derived =>
        isBase base derived ∧ Relation.ReflTransGen isBase derived i := by
      rw [wellFounded_iff_acyclic _ classes fun base derived h => hclasses base derived h.1]
      intro j hcycle
      rcases Relation.TransGen.tail'_iff.mp hcycle with ⟨_, _, _, hbelow⟩
      have hcycle' : Relation.TransGen isBase j j :=
        Relation.TransGen.mono (fun _ _ h => h.1) j j hcycle
      rcases Relation.reflTransGen_iff_eq_or_transGen.mp hbelow with heq | hbelow
      · rw [heq] at hfree
        exact hfree (Or.inl hcycle')
      · exact hfree (Or.inr ⟨j, hcycle', hbelow⟩)
    have hacc : ∀ j, Relation.ReflTransGen isBase j i → Acc isBase j := by
      intro j
      induction j using hwf.induction with
      | _ j ih =>
          exact fun hbelow => Acc.intro j fun base hbase =>
            ih base ⟨hbase, hbelow⟩ (hbelow.head hbase)
    exact hacc i Relation.ReflTransGen.refl

variable {order : List Nat}

/-- Chains of bases lead to the front of a legal order and end there. -/
theorem LegalOrder.acc (h : LegalOrder isBase order) (i : Nat) (hi : i ∈ order) :
    Acc isBase i := by
  rcases List.mem_iff_getElem?.mp hi with ⟨place, hplace⟩
  clear hi
  induction place using Nat.strong_induction_on generalizing i with
  | _ place ih =>
      refine Acc.intro i (fun base hbase => ?_)
      rcases h.bases_first place i hplace base hbase with ⟨earlier, hlt, hearlier⟩
      exact ih earlier hlt base hearlier

end Chains

namespace ClassGraph

variable (g : ClassGraph) (h : g.WellFormed)
include h

/-- What the loop has placed by the time it stops is a legal order. -/
theorem legalOrder_finish : LegalOrder g.IsBase g.finish.order := by
  have hinv := finish_invariant g h
  have hnodup := (List.nodup_append.mp hinv.nodup).1
  refine ⟨hnodup, fun place derived hplace base hbase => ?_⟩
  have hderived := List.mem_of_getElem? hplace
  have hmem := ((mem_finish_iff_bases g h derived).mp hderived).2 base hbase
  have hlt := hinv.bases_first derived hderived base hbase
  rcases List.getElem?_eq_some_iff.mp hplace with ⟨hbound, hget⟩
  rw [← hget, hnodup.idxOf_getElem] at hlt
  exact ⟨_, hlt, by rw [List.getElem?_eq_getElem (by omega), List.getElem_idxOf]⟩

/-- A class has a place in a legal order if and only if all chains below it end. -/
theorem exists_legalOrder_iff (i : Nat) (hi : i < g.size) :
    (∃ order, LegalOrder g.IsBase order ∧ i ∈ order) ↔ Acc g.IsBase i := by
  constructor
  · rintro ⟨order, horder, hmem⟩
    exact horder.acc i hmem
  · intro hacc
    exact ⟨_, legalOrder_finish g h, (mem_finish_iff g h i).mpr ⟨hi, hacc⟩⟩

end ClassGraph

section Unplaced

variable (classes : List ClassRecord)

theorem lt_length_of_restsOnCycle (i : Nat) (h : RestsOnCycle (BaseAt classes) i) :
    i < classes.length := by
  have hsome : ∃ j, Relation.TransGen (BaseAt classes) j i :=
    h.elim (fun hcycle => ⟨i, hcycle⟩) (fun ⟨j, _, hbelow⟩ => ⟨j, hbelow⟩)
  rcases hsome with ⟨j, hbelow⟩
  rcases Relation.TransGen.tail'_iff.mp hbelow with ⟨base, _, hbase⟩
  exact List.mem_range.mp (baseAt_mem classes base i hbase).2

/-- Positions of the graph have the names that the classes of the list have. -/
theorem map_nameAt_ofClasses (positions : List Nat)
    (h : ∀ i ∈ positions, i < classes.length) :
    (positions.map (ClassGraph.ofClasses classes).nameAt).map some =
      positions.map fun i => classes[i]?.map (·.name) := by
  rw [List.map_map]
  refine List.map_congr_left (fun i hi => ?_)
  have hget := List.getElem?_eq_getElem (h i hi)
  rw [Function.comp_apply, ClassGraph.nameAt_ofClasses classes i _ hget, hget, Option.map_some]

end Unplaced

/-- If some class is its own base, directly or through others, the classes have no order, and
    exactly those are named that rest on a cycle, in the order of the input. They are the ones that
    have no place in any legal order. -/
theorem sortClasses_unplaced (classes : List ClassRecord)
    (hcycle : ∃ i, Relation.TransGen (BaseAt classes) i i) :
    ∃ (unplaced : List Nat) (names : List String),
      unplaced.Sublist (List.range classes.length) ∧
      (∀ i, i ∈ unplaced ↔ RestsOnCycle (BaseAt classes) i) ∧
      (∀ i < classes.length,
        i ∉ unplaced ↔ ∃ order, LegalOrder (BaseAt classes) order ∧ i ∈ order) ∧
      names.map some = unplaced.map (fun i => classes[i]?.map (·.name)) ∧
      (ClassGraph.ofClasses classes).topologicalOrder = .error names ∧
      sortClasses classes = .error names := by
  have hwf := ClassGraph.wellFormed_ofClasses classes
  have hacc : ¬ ∀ i < (ClassGraph.ofClasses classes).size,
      Acc (ClassGraph.ofClasses classes).IsBase i := by
    rw [forall_acc_iff_acyclic]
    exact fun hacyclic => hcycle.elim hacyclic
  rcases ClassGraph.topologicalOrder_eq_error _ hwf hacc with ⟨unplaced, herror, hsub, hmem⟩
  have hlegal := ClassGraph.exists_legalOrder_iff _ hwf
  rw [ClassGraph.size_ofClasses, isBase_ofClasses_eq] at hmem hlegal
  rw [ClassGraph.size_ofClasses] at hsub
  -- A class is named if some chain below it has no end.
  refine ⟨unplaced, _, hsub, fun i => ?_, fun i hi => ?_, ?_, herror, ?_⟩
  · rw [hmem, acc_iff_not_restsOnCycle _ (baseAt_mem classes), not_not, and_iff_right_iff_imp]
    exact lt_length_of_restsOnCycle classes i
  · rw [hlegal i hi, hmem, not_and, not_not]
    exact ⟨fun h => h hi, fun h _ => h⟩
  · exact map_nameAt_ofClasses classes unplaced fun i hi => ((hmem i).mp hi).1
  · rw [sortClasses_eq, herror]
    rfl

/-- Two classes derive from each other and one from itself. A class before the last has the name of
    it and derives from it, another derives from one of the two, and the rest is free. -/
def tangledBases : List ClassRecord :=
  [{ name := "Loop", superclasses := ["Loop"] }, { name := "Left", superclasses := ["Right"] },
   { name := "Right", superclasses := ["Left", "Free"] },
   { name := "Tail", superclasses := ["Free", "Left"] },
   { name := "Free", superclasses := ["Elsewhere"] }, { name := "Loop", superclasses := ["Loop"] },
   { name := "Over", superclasses := ["Free"] }]

theorem sortClasses_unplaced_tangled :
    Relation.TransGen (BaseAt tangledBases) 5 5 ∧
    sortClasses tangledBases = .error ["Loop", "Left", "Right", "Tail", "Loop"] ∧
    ∃ order, LegalOrder (BaseAt tangledBases) order ∧ 6 ∈ order := by
  have hbase : BaseAt tangledBases 5 5 := by
    refine ⟨_, rfl, "Loop", List.mem_singleton.mpr rfl, ⟨_, rfl, rfl⟩, fun later c hlt hc => ?_⟩
    have hbound : later < 7 := (List.getElem?_eq_some_iff.mp hc).1
    obtain rfl : later = 6 := by omega
    rw [← Option.some.inj hc]
    decide
  have hcycle : Relation.TransGen (BaseAt tangledBases) 5 5 := Relation.TransGen.single hbase
  have horder : (ClassGraph.ofClasses tangledBases).topologicalOrder =
      .error ["Loop", "Left", "Right", "Tail", "Loop"] := by cbv
  rcases sortClasses_unplaced tangledBases ⟨5, hcycle⟩ with
    ⟨unplaced, names, _, _, hlegal, hnames, herror, hsorted⟩
  rw [horder, Except.error.injEq] at herror
  subst herror
  refine ⟨hcycle, hsorted, (hlegal 6 (by decide)).mp fun hmem => ?_⟩
  -- The last class is not among those that are named.
  have hname := List.mem_map_of_mem (f := fun i => tangledBases[i]?.map (·.name)) hmem
  rw [← hnames] at hname
  exact absurd hname (by decide)

end HeaderBinding
