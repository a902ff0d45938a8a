import HeaderBinding.Proofs.ClassOrder.Depth
import HeaderBinding.Proofs.ClassOrder.Sort
import Mathlib.Data.List.Permutation
import Mathlib.Data.Prod.Lex

/-!
# The Order of the Classes, Exactly

There is one order in which the loop places the classes of a module, and it can be told without the
loop. A class with a longer chain of bases below it stands behind one with a shorter chain, and
classes with chains of one length stand in the order of the input. `LevelOrder` says that of a list
of positions. Positions compare strictly, so no two lists can have it (`LevelOrder.unique`).

Names may be borne by several classes. A superclass then stands for the last class of its name,
wherever the classes before it stand, and `BaseAt` is the graph that comes of it.

Sorting a second time changes nothing if the names are distinct. The sorted classes have the chains
they had, only their positions are new, and by these they are in order already. With repeated names
that fails, as another class may have become the last of its name.

## Main definitions

* `LastOfName`: The last class of a name.
* `BaseAt`: One class is a base of another, by position.
* `LevelOrder`: A list of all positions, by the lengths of chains and then by position.

## Theorems

* `baseAt_mem`: Bases and the classes that have them are classes of the list.
* `isBase_ofClasses_eq`: The graph of a list of classes is `BaseAt`.
* `levelOrder_finish`: The loop places the classes in level order.
* `LevelOrder.unique`: There is no other level order.
* `topologicalOrder_eq_ok_iff`: When there is an order at all.
* `levelOrder_sorted`: Sorted classes are in level order as they stand.
* `sortClasses_levelOrder`: The order of the classes, and sorting them into it.
-/

namespace HeaderBinding

/-- The class at a position is the last that bears a name. -/
def LastOfName (classes : List ClassRecord) (name : String) (position : Nat) : Prop :=
  (∃ c, classes[position]? = some c ∧ c.name = name) ∧
    ∀ (later : Nat) (c : ClassRecord), position < later → classes[later]? = some c → c.name ≠ name

/-- The class at `base` is the last of a name that the class at `derived` has among its
    superclasses. -/
def BaseAt (classes : List ClassRecord) (base derived : Nat) : Prop :=
  ∃ c, classes[derived]? = some c ∧ ∃ name ∈ c.superclasses, LastOfName classes name base

/-- A list of all positions below `size`, strictly ascending by the length of the longest chain of
    bases and then by position. -/
structure LevelOrder (isBase : Nat → Nat → Prop) (size : Nat) (order : List Nat) : Prop where
  perm : order.Perm (List.range size)
  ascending : ∃ depth : Nat → Nat,
    (∀ i < size, IsGreatest {length | BaseChain isBase length i} (depth i)) ∧
    order.Pairwise fun i j => toLex (depth i, i) < toLex (depth j, j)

/-- Bases and the classes that have them are classes of the list. -/
theorem baseAt_mem (classes : List ClassRecord) (base derived : Nat)
    (h : BaseAt classes base derived) :
    base ∈ List.range classes.length ∧ derived ∈ List.range classes.length := by
  rcases h with ⟨c, hc, name, _, ⟨b, hb, _⟩, _⟩
  exact ⟨List.mem_range.mpr (List.getElem?_eq_some_iff.mp hb).1,
    List.mem_range.mpr (List.getElem?_eq_some_iff.mp hc).1⟩

theorem isBase_ofClasses_eq (classes : List ClassRecord) :
    (ClassGraph.ofClasses classes).IsBase = BaseAt classes := by
  have hlast : ∀ (name : String) (base : Nat),
      ((classes.map (·.name))[base]? = some name ∧
        ∀ later, base < later → (classes.map (·.name))[later]? ≠ some name) ↔
          LastOfName classes name base := by
    intro name base
    simp only [LastOfName, List.getElem?_map, Option.map_eq_some_iff, ne_eq, not_exists, not_and]
    exact and_congr_right fun _ => forall_congr' fun later => forall_comm
  funext base derived
  rw [ClassGraph.IsBase, ClassGraph.mem_basesAt_ofClasses]
  simp only [hlast, BaseAt]

/-- If all classes can be placed, the loop places them in level order. -/
theorem levelOrder_finish (g : ClassGraph) (h : g.WellFormed)
    (hacc : ∀ i < g.size, Acc g.IsBase i) : LevelOrder g.IsBase g.size g.finish.order := by
  rcases ClassGraph.layered_finish g h with ⟨last, hl⟩
  have hperm := ClassGraph.finish_order_perm g h hacc
  have hdepth : ∀ i < g.size, ∃ d, IsGreatest {length | BaseChain g.IsBase length i} d := by
    intro i hi
    rcases hl.placed i (hperm.mem_iff.mpr (List.mem_range.mpr hi)) with ⟨d, _, hgreatest⟩
    exact ⟨d, hgreatest⟩
  choose! depth hdepth using hdepth
  refine ⟨hperm, depth, hdepth, hl.sorted.imp_of_mem ?_⟩
  intro i j hi hj hbefore
  rw [hperm.mem_iff, List.mem_range] at hi hj
  exact Prod.Lex.toLex_lt_toLex.mpr (hbefore _ _ (hdepth i hi) (hdepth j hj))

/-- There is no more than one level order of a graph. -/
theorem LevelOrder.unique {isBase : Nat → Nat → Prop} {size : Nat} {order other : List Nat}
    (h : LevelOrder isBase size order) (h' : LevelOrder isBase size other) : order = other := by
  rcases h.ascending with ⟨depth, hdepth, hascending⟩
  rcases h'.ascending with ⟨depth', hdepth', hascending'⟩
  -- A class has one longest chain, so both lists compare by the same lengths.
  have hother : other.Pairwise fun i j => toLex (depth i, i) < toLex (depth j, j) := by
    refine hascending'.imp_of_mem ?_
    intro i j hi hj hlt
    rw [h'.perm.mem_iff, List.mem_range] at hi hj
    rw [(hdepth i hi).unique (hdepth' i hi), (hdepth j hj).unique (hdepth' j hj)]
    exact hlt
  refine List.Perm.eq_of_pairwise (fun i j _ _ hij hji => ?_) hascending hother
    (h.perm.trans h'.perm.symm)
  exact absurd (lt_trans hij hji) (lt_irrefl _)

section Sorting

variable (classes : List ClassRecord)

/-- Nothing is its own base, directly or through others, if and only if every chain of bases comes
    to an end. -/
theorem forall_acc_iff_acyclic :
    (∀ i < (ClassGraph.ofClasses classes).size, Acc (ClassGraph.ofClasses classes).IsBase i) ↔
      ∀ i, ¬ Relation.TransGen (BaseAt classes) i i := by
  rw [← wellFounded_iff_acyclic _ _ (baseAt_mem classes), isBase_ofClasses_eq,
    ClassGraph.size_ofClasses]
  constructor
  · intro hacc
    refine ⟨fun i => Acc.intro i (fun base hbase => ?_)⟩
    exact hacc base (List.mem_range.mp (baseAt_mem classes base i hbase).1)
  · intro hwf i _
    exact hwf.apply i

/-- There is an order if and only if no class is its own base, and then it is the level order. -/
theorem topologicalOrder_eq_ok_iff (order : List Nat) :
    (ClassGraph.ofClasses classes).topologicalOrder = .ok order ↔
      (∀ i, ¬ Relation.TransGen (BaseAt classes) i i) ∧
        LevelOrder (BaseAt classes) classes.length order := by
  have hwf := ClassGraph.wellFormed_ofClasses classes
  have hlevel := levelOrder_finish _ hwf
  rw [← forall_acc_iff_acyclic]
  by_cases hacc : ∀ i < (ClassGraph.ofClasses classes).size,
      Acc (ClassGraph.ofClasses classes).IsBase i
  · rw [ClassGraph.topologicalOrder_eq_ok _ hwf hacc, Except.ok.injEq]
    replace hlevel := hlevel hacc
    rw [isBase_ofClasses_eq, ClassGraph.size_ofClasses] at hlevel
    exact ⟨fun h => ⟨hacc, h ▸ hlevel⟩, fun h => hlevel.unique h.2⟩
  · rcases ClassGraph.topologicalOrder_eq_error _ hwf hacc with ⟨stuck, herror, _⟩
    rw [herror]
    exact iff_of_false (by simp only [reduceCtorEq, not_false_eq_true]) (fun h => hacc h.1)

/-- Sorting looks the classes up at the positions of the order. -/
theorem sortClasses_eq :
    sortClasses classes = (ClassGraph.ofClasses classes).topologicalOrder.map
      fun order => order.filterMap fun i => classes[i]? := by
  unfold sortClasses
  simp only [List.getElem?_toArray]
  rfl

variable {classes} {order : List Nat}

-- No position of an order is left out when its classes are looked up.
theorem LevelOrder.isSome_getElem? (h : LevelOrder (BaseAt classes) classes.length order) (i : Nat)
    (hi : i ∈ order) : (classes[i]?).isSome := by
  rw [h.perm.mem_iff, List.mem_range] at hi
  rw [List.getElem?_eq_getElem hi]
  rfl

/-- The sorted classes are the classes of the input, each at the place its position has in the
    order. -/
theorem LevelOrder.map_some_filterMap (h : LevelOrder (BaseAt classes) classes.length order) :
    (order.filterMap fun i => classes[i]?).map some = order.map fun i => classes[i]? := by
  refine List.ext_getElem? (fun place => ?_)
  rw [List.getElem?_map, List.getElem?_map,
    getElem?_filterMap_of_isSome order _ h.isSome_getElem?]
  rcases hget : order[place]? with _ | i
  · rfl
  · rcases Option.isSome_iff_exists.mp (h.isSome_getElem? i (List.mem_of_getElem? hget)) with
      ⟨c, hc⟩
    simp only [Option.bind_some, Option.map_some, hc]

theorem LevelOrder.filterMap_perm (h : LevelOrder (BaseAt classes) classes.length order) :
    (order.filterMap fun i => classes[i]?).Perm classes := by
  have hperm := h.perm.filterMap fun i => classes[i]?
  rw [filterMap_range_getElem?] at hperm
  exact hperm

/-- With distinct names, a base of a sorted class is a base of the class it was before. -/
theorem baseAt_sorted_iff (hnodup : (classes.map (·.name)).Nodup)
    (h : LevelOrder (BaseAt classes) classes.length order) (k l : Nat) :
    BaseAt (order.filterMap fun i => classes[i]?) k l ↔
      ∃ i j, order[k]? = some i ∧ order[l]? = some j ∧ BaseAt classes i j := by
  have hnodup' := (h.filterMap_perm.map (·.name)).nodup_iff.mpr hnodup
  rw [← isBase_ofClasses_eq, isBase_ofClasses_iff _ hnodup', ← isBase_ofClasses_eq]
  simp only [isBase_ofClasses_iff _ hnodup,
    getElem?_filterMap_of_isSome order _ h.isSome_getElem?, Option.bind_eq_some_iff]
  constructor
  · rintro ⟨b, c, ⟨i, hi, hb⟩, ⟨j, hj, hc⟩, hsuper⟩
    exact ⟨i, j, hi, hj, b, c, hb, hc, hsuper⟩
  · rintro ⟨i, j, hi, hj, b, c, hb, hc, hsuper⟩
    exact ⟨b, c, ⟨i, hi, hb⟩, ⟨j, hj, hc⟩, hsuper⟩

/-- Sorted classes of distinct names are in level order as they stand. -/
theorem levelOrder_sorted (hnodup : (classes.map (·.name)).Nodup)
    (h : LevelOrder (BaseAt classes) classes.length order) :
    LevelOrder (BaseAt (order.filterMap fun i => classes[i]?)) classes.length
      (List.range classes.length) := by
  rcases h.ascending with ⟨depth, hdepth, hascending⟩
  have hbase := baseAt_sorted_iff hnodup h
  have hlength : order.length = classes.length := by
    rw [h.perm.length_eq, List.length_range]
  -- A class keeps its chains when it gets another position.
  have hchains : ∀ k i, order[k]? = some i →
      {length | BaseChain (BaseAt (order.filterMap fun i => classes[i]?)) length k} =
        {length | BaseChain (BaseAt classes) length i} := by
    intro k i hk
    ext length
    constructor
    · intro hchain
      refine hchain.imp (fun k i => order[k]? = some i) (fun k i hk base hb => ?_) length k i hk
      rcases (hbase base k).mp hb with ⟨i', j, hi', hj, hbase'⟩
      rw [hk, Option.some.injEq] at hj
      exact ⟨i', hi', hj ▸ hbase'⟩
    · intro hchain
      refine hchain.imp (fun i k => order[k]? = some i) (fun i k hk base hb => ?_) length i k hk
      have hmem : base ∈ order := by
        rcases hb with ⟨_, _, _, _, ⟨b, hget, _⟩, _⟩
        exact h.perm.mem_iff.mpr (List.mem_range.mpr (List.getElem?_eq_some_iff.mp hget).1)
      rcases List.mem_iff_getElem?.mp hmem with ⟨k', hk'⟩
      exact ⟨k', hk', (hbase k' k).mpr ⟨base, i, hk', hk, hb⟩⟩
  have hplace : ∀ (k : Nat) (hk : k < order.length), order.getD k 0 = order[k] := by
    intro k hk
    rw [List.getD_eq_getElem?_getD, List.getElem?_eq_getElem hk, Option.getD_some]
  refine ⟨List.Perm.refl _, fun k => depth (order.getD k 0), fun k hk => ?_, ?_⟩
  · have hget : order[k]? = some order[k] := List.getElem?_eq_getElem (by omega)
    simp only [hplace k (by omega), hchains k order[k] hget]
    exact hdepth _ (List.mem_range.mp (h.perm.mem_iff.mp (List.getElem_mem _)))
  · -- A class further on has no shorter chains, and its position is higher.
    refine List.pairwise_lt_range.imp_of_mem ?_
    intro k l hk hl hlt
    rw [List.mem_range] at hk hl
    have hpair := List.pairwise_iff_getElem.mp hascending k l (by omega) (by omega) hlt
    rw [Prod.Lex.toLex_lt_toLex] at hpair ⊢
    simp only [hplace k (by omega), hplace l (by omega)]
    omega

/-- Sorting again what has been sorted changes nothing, if the names are distinct. -/
theorem sortClasses_sorted (hnodup : (classes.map (·.name)).Nodup)
    (hacyclic : ∀ i, ¬ Relation.TransGen (BaseAt classes) i i)
    (h : LevelOrder (BaseAt classes) classes.length order) :
    sortClasses (order.filterMap fun i => classes[i]?) =
      .ok (order.filterMap fun i => classes[i]?) := by
  have hperm := h.filterMap_perm
  have hlevel := levelOrder_sorted hnodup h
  -- Having no cycle is said of names, which are the same in any order.
  have hacyclic' : ∀ i, ¬ Relation.TransGen
      (BaseAt (order.filterMap fun i => classes[i]?)) i i := by
    rw [← forall_acc_iff_acyclic] at hacyclic ⊢
    rw [forall_acc_isBase_iff _ hnodup] at hacyclic
    rw [forall_acc_isBase_iff _ ((hperm.map (·.name)).nodup_iff.mpr hnodup),
      baseName_of_perm _ _ hperm]
    exact fun c hc => hacyclic c (hperm.mem_iff.mp hc)
  rw [← hperm.length_eq] at hlevel
  rw [sortClasses_eq, (topologicalOrder_eq_ok_iff _ _).mpr ⟨hacyclic', hlevel⟩]
  exact congrArg Except.ok (filterMap_range_getElem? _)

end Sorting

/-- There is an order of the classes if and only if none of them is its own base, directly or
    through others. The order lists every position once, by the length of the longest chain of bases
    and then by position. Sorting gives back the classes of the input at these positions, and leaves
    sorted classes alone if their names are distinct. -/
theorem sortClasses_levelOrder (classes : List ClassRecord) :
    ((∃ order, (ClassGraph.ofClasses classes).topologicalOrder = .ok order) ↔
      ∀ i, ¬ Relation.TransGen (BaseAt classes) i i) ∧
    ∀ order, (ClassGraph.ofClasses classes).topologicalOrder = .ok order →
      LevelOrder (BaseAt classes) classes.length order ∧
      ∃ sorted, sortClasses classes = .ok sorted ∧ sorted.Perm classes ∧
        sorted.map some = order.map (fun i => classes[i]?) ∧
        ((classes.map (·.name)).Nodup → sortClasses sorted = .ok sorted) := by
  constructor
  · constructor
    · rintro ⟨order, hok⟩
      exact ((topologicalOrder_eq_ok_iff classes order).mp hok).1
    · intro hacyclic
      have hwf := ClassGraph.wellFormed_ofClasses classes
      exact ⟨_, ClassGraph.topologicalOrder_eq_ok _ hwf
        ((forall_acc_iff_acyclic classes).mpr hacyclic)⟩
  · intro order hok
    rcases (topologicalOrder_eq_ok_iff classes order).mp hok with ⟨hacyclic, hlevel⟩
    refine ⟨hlevel, _, ?_, hlevel.filterMap_perm, hlevel.map_some_filterMap,
      fun hnodup => sortClasses_sorted hnodup hacyclic hlevel⟩
    rw [sortClasses_eq, hok]
    rfl

/-- Two ways lead from the last class up to the first, and one of the classes between also has a
    base elsewhere. -/
def crossedBases : List ClassRecord :=
  [{ name := "Bottom", superclasses := ["Left", "Right", "Left"] },
   { name := "Right", superclasses := ["Top"] },
   { name := "Left", superclasses := ["Top", "Elsewhere"] }, { name := "Top" }]

theorem sortClasses_levelOrder_crossed :
    (ClassGraph.ofClasses crossedBases).topologicalOrder = .ok [3, 1, 2, 0] ∧
    LevelOrder (BaseAt crossedBases) 4 [3, 1, 2, 0] ∧
    ∃ sorted, sortClasses crossedBases = .ok sorted ∧
      sorted.map (·.name) = ["Top", "Right", "Left", "Bottom"] ∧
      sortClasses sorted = .ok sorted := by
  have hok : (ClassGraph.ofClasses crossedBases).topologicalOrder = .ok [3, 1, 2, 0] := by cbv
  rcases (sortClasses_levelOrder crossedBases).2 _ hok with
    ⟨hlevel, sorted, hsorted, _, hrecords, hagain⟩
  refine ⟨hok, hlevel, sorted, hsorted, ?_, hagain (by decide)⟩
  have hnames := congrArg (List.map (Option.map (·.name))) hrecords
  rw [List.map_map] at hnames
  refine List.map_injective_iff.mpr (Option.some_injective _) ?_
  rw [List.map_map]
  exact hnames

end HeaderBinding
