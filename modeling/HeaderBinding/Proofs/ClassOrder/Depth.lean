import HeaderBinding.Proofs.ClassOrder.Levels
import Mathlib.Order.Bounds.Basic

/-!
# How Deep a Class Stands

The level that the ordering loop gives a class, told from the graph alone.

Below a class hang chains of bases, and the class can be placed no sooner than the longest of them
has been worked off. The loop does not wait longer than that either. `Progress.Layered` is the
invariant that says so. With a number of levels placed, the classes of the next level are those
whose longest chain has just that length, and everything placed before stands in the order of the
lengths.

A class may have bases in many levels, but one of them stands in the level that releases it, and
none later. So its longest chain is one longer than the number of that level (`isGreatest_succ`).
Counters play no part here, as `mem_level_step` has done away with them.

Classes of one level keep the order of the input, since a level is sorted by position before it is
placed. Both together make the order of all classes strictly ascending by length and position.

## Main definitions

* `BaseChain`: A chain of bases of a given length below a class.
* `StandsBefore`: One class stands before another by the lengths of their chains and by position.
* `ClassGraph.Progress.Layered`: What the loop knows about chains between two levels.

## Theorems

* `BaseChain.imp`: Chains are carried over from one graph to another.
* `isGreatest_zero`, `isGreatest_succ`: The longest chain below a class from those of its bases.
* `ClassGraph.ascending_level_step`: A level is placed in the order of the input.
* `ClassGraph.layered_step`: Placing a level keeps the invariant.
* `ClassGraph.layered_run`: So do all levels one after the other.
* `ClassGraph.layered_finish`: What is known when the loop ends.
-/

namespace HeaderBinding

/-- A chain of bases below a class, one for each step down. -/
inductive BaseChain (isBase : Nat → Nat → Prop) : Nat → Nat → Prop
  | nil (i : Nat) : BaseChain isBase 0 i
  | cons (length base derived : Nat) (below : BaseChain isBase length base)
      (hbase : isBase base derived) : BaseChain isBase (length + 1) derived

/-- One class stands before another if its longest chain of bases is shorter, or as long and its
    position lower. -/
def StandsBefore (isBase : Nat → Nat → Prop) (i j : Nat) : Prop :=
  ∀ m n, IsGreatest {length | BaseChain isBase length i} m →
    IsGreatest {length | BaseChain isBase length j} n → m < n ∨ m = n ∧ i < j

/-- Chains are carried over from one graph to another along any way of matching their classes that
    finds each base again. -/
theorem BaseChain.imp {isBase isBase' : Nat → Nat → Prop} (same : Nat → Nat → Prop)
    (hsame : ∀ i j, same i j → ∀ base, isBase base i → ∃ base', same base base' ∧ isBase' base' j)
    (length i : Nat) (h : BaseChain isBase length i) (j : Nat) (hij : same i j) :
    BaseChain isBase' length j := by
  induction h generalizing j with
  | nil i => exact BaseChain.nil j
  | cons length base derived _ hbase ih =>
      rcases hsame derived j hij base hbase with ⟨base', hmatch, hbase'⟩
      exact BaseChain.cons length base' j (ih base' hmatch) hbase'

section Longest

variable {isBase : Nat → Nat → Prop} (i : Nat)

/-- Below a class without bases there is only the chain of no steps. -/
theorem isGreatest_zero (hnone : ∀ base, ¬ isBase base i) :
    IsGreatest {length | BaseChain isBase length i} 0 := by
  refine ⟨BaseChain.nil i, fun length hchain => ?_⟩
  cases hchain with
  | nil => exact Nat.le_refl 0
  | cons length base _ _ hbase => exact absurd hbase (hnone base)

/-- The longest chain below a class is one longer than the longest below its bases. -/
theorem isGreatest_succ (rank : Nat)
    (hsome : ∃ base, isBase base i ∧ IsGreatest {length | BaseChain isBase length base} rank)
    (hall : ∀ base, isBase base i →
      ∃ d ≤ rank, IsGreatest {length | BaseChain isBase length base} d) :
    IsGreatest {length | BaseChain isBase length i} (rank + 1) := by
  rcases hsome with ⟨base, hbase, hgreatest⟩
  refine ⟨BaseChain.cons rank base i hgreatest.1 hbase, fun length hchain => ?_⟩
  cases hchain with
  | nil => exact Nat.zero_le _
  | cons length first _ hbelow hfirst =>
      rcases hall first hfirst with ⟨d, hd, hbound⟩
      have hle : length ≤ d := hbound.2 hbelow
      omega

end Longest

namespace ClassGraph

/-- What is known about chains when `rank` levels have been placed. -/
structure Progress.Layered (g : ClassGraph) (rank : Nat) (p : Progress) : Prop where
  /-- Below a placed class no chain is as long as the number of levels. -/
  placed : ∀ i ∈ p.order, ∃ d < rank, IsGreatest {length | BaseChain g.IsBase length i} d
  /-- Below a class of the next level the longest chain has just that length. -/
  next : ∀ i ∈ p.level, IsGreatest {length | BaseChain g.IsBase length i} rank
  ascending : p.level.Pairwise (· < ·)
  sorted : p.order.Pairwise (StandsBefore g.IsBase)

/-- A level is placed in the order of the input. -/
theorem ascending_level_step (g : ClassGraph) (h : g.WellFormed) (p : Progress)
    (hp : p.Invariant g) : (p.step g.dependents).level.Pairwise (· < ·) := by
  have hnodup := nodup_level_step g h p hp
  have hle : (p.step g.dependents).level.Pairwise (· ≤ ·) := by
    rw [step_eq]
    refine (List.pairwise_mergeSort ?_ ?_ _).imp ?_
    · intro a b c hab hbc
      simp only [decide_eq_true_eq] at hab hbc ⊢
      omega
    · intro a b
      simp only [Bool.or_eq_true, decide_eq_true_eq]
      omega
    · intro a b hab
      exact of_decide_eq_true hab
  -- No class is released twice, so none stands beside itself.
  refine (hle.and hnodup).imp ?_
  intro a b hab
  exact Nat.lt_of_le_of_ne hab.1 hab.2

/-- Placing a level keeps the classes in the order of their chains. -/
theorem layered_step (g : ClassGraph) (h : g.WellFormed) (p : Progress) (hp : p.Invariant g)
    (rank : Nat) (hl : p.Layered g rank) : (p.step g.dependents).Layered g (rank + 1) := by
  have horder := order_step g p
  have hplaced : ∀ i ∈ p.order ++ p.level,
      ∃ d ≤ rank, IsGreatest {length | BaseChain g.IsBase length i} d := by
    intro i hi
    rcases List.mem_append.mp hi with hold | hlevel
    · rcases hl.placed i hold with ⟨d, hd, hgreatest⟩
      exact ⟨d, Nat.le_of_lt hd, hgreatest⟩
    · exact ⟨rank, Nat.le_refl rank, hl.next i hlevel⟩
  refine ⟨fun i hi => ?_, fun i hi => ?_, ascending_level_step g h p hp, ?_⟩
  · rw [horder] at hi
    rcases hplaced i hi with ⟨d, hd, hgreatest⟩
    exact ⟨d, Nat.lt_succ_of_le hd, hgreatest⟩
  · -- The base that releases a class stands in this level, the others here or before.
    rcases (mem_level_step g h p hp i).mp hi with ⟨_, ⟨base, hbase, hlevel⟩, hall⟩
    exact isGreatest_succ i rank ⟨base, hbase, hl.next base hlevel⟩
      (fun base hbase => hplaced base (hall base hbase))
  · rw [horder, List.pairwise_append]
    refine ⟨hl.sorted, hl.ascending.imp_of_mem ?_, fun i hi j hj => ?_⟩
    · -- Two classes of one level have chains of one length.
      intro i j hi hj hlt m n hm hn
      exact Or.inr ⟨(hm.unique (hl.next i hi)).trans (hn.unique (hl.next j hj)).symm, hlt⟩
    · intro m n hm hn
      rcases hl.placed i hi with ⟨d, hd, hgreatest⟩
      have hmd := hm.unique hgreatest
      have hnr := hn.unique (hl.next j hj)
      omega

/-- The first level holds the classes without bases. -/
theorem layered_start (g : ClassGraph) (h : g.WellFormed) : g.start.Layered g 0 := by
  have hinv := start_invariant g h
  refine ⟨fun i hi => absurd hi List.not_mem_nil, fun i hi => ?_, ?_, List.Pairwise.nil⟩
  · refine isGreatest_zero i (fun base hbase => ?_)
    exact List.not_mem_nil (hinv.placed i (List.mem_append_right _ hi) base hbase)
  · change ((List.range g.size).filter _).Pairwise _
    exact List.pairwise_lt_range.filter _

/-- A run of levels keeps the classes in the order of their chains. -/
theorem layered_run (g : ClassGraph) (h : g.WellFormed) (rounds : Nat) (p : Progress)
    (hp : p.Invariant g) (rank : Nat) (hl : p.Layered g rank) :
    ∃ last, (Progress.run g.dependents rounds p).Layered g last := by
  induction rounds generalizing p rank with
  | zero => exact ⟨rank, hl⟩
  | succ rounds ih =>
      unfold Progress.run
      by_cases hempty : p.level.isEmpty
      · rw [if_pos hempty]
        exact ⟨rank, hl⟩
      · rw [if_neg hempty]
        exact ih _ (step_invariant g h p hp) (rank + 1) (layered_step g h p hp rank hl)

theorem layered_finish (g : ClassGraph) (h : g.WellFormed) :
    ∃ last, g.finish.Layered g last :=
  layered_run g h (g.size + 1) g.start (start_invariant g h) 0 (layered_start g h)

end ClassGraph

end HeaderBinding
