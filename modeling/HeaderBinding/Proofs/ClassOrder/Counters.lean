import HeaderBinding.Proofs.ClassOrder.Cycles
import Mathlib.Data.List.Iterate

/-!
# The Counters in the Middle of a Level

What the counters of the ordering loop hold while a level is worked off, one lowering after the
other, and how many levels there are.

`Progress.Invariant` speaks of the moments between two levels. In between, the loop takes the
classes of the level in turn and lowers the counter of every class that has one of them as a base.
The lowerings made so far say which bases a class has lost in this level, each of them once, and its
counter is the number of the others (`getElem?_lowered`).

The pair that comes next is of a base that its class has not lost. The counter then counts that base
at least, so subtracting one never goes below zero (`lowered_pos`).

Every level but the last holds a class, and no class is in two levels. There are then no more levels
than classes, and the loop ends by itself before its rounds run out.

## Main definitions

* `ClassGraph.before`: The state in front of a level.
* `ClassGraph.Progress.lowered`: The counters when some lowerings have been made.
* `ClassGraph.openBases`: The bases that a class has not lost.

## Theorems

* `ClassGraph.getElem?_lowered`: A counter counts the open bases at any time.
* `ClassGraph.lowered_pos`: A counter that is lowered is positive.
* `ClassGraph.run_eq_before`: A run stops at the first empty level.
* `ofClasses_counters`: All of it for the graph of any list of classes.
-/

namespace HeaderBinding

namespace ClassGraph

/-- The state in front of a level, when `rounds` levels have been placed. -/
def before (g : ClassGraph) (rounds : Nat) : Progress :=
  (Progress.step g.dependents)^[rounds] g.start

/-- The counters in the middle of a level, when some lowerings have been made. -/
def Progress.lowered (p : Progress) (made : List (Nat × Nat)) : Array Nat :=
  ((made.map (·.2)).foldl Progress.settle (p.remaining, [])).1

/-- The bases of a class that have not been placed and that no lowering has taken from it. -/
def openBases (g : ClassGraph) (p : Progress) (made : List (Nat × Nat)) (i : Nat) : List Nat :=
  (g.basesAt i).filter fun base => base ∉ p.order ∧ (base, i) ∉ made

theorem before_succ (g : ClassGraph) (rounds : Nat) :
    g.before (rounds + 1) = (g.before rounds).step g.dependents :=
  Function.iterate_succ_apply' _ _ _

/-- The last counters of a level are those in front of the next. -/
theorem remaining_step_eq (g : ClassGraph) (p : Progress) :
    (p.step g.dependents).remaining = p.lowered (g.lowerings p.level) := by
  rw [step_eq, Progress.lowered, map_snd_lowerings]

section Level

variable (g : ClassGraph) (h : g.WellFormed) (p : Progress) (hp : p.Invariant g)
  (made rest : List (Nat × Nat)) (hmade : g.lowerings p.level = made ++ rest)
include h hp hmade

/-- At any time a counter is the number of the open bases of its class. -/
theorem getElem?_lowered (i : Nat) (hi : i < g.size) :
    (p.lowered made)[i]? = some (g.openBases p made i).length := by
  have hcount := count_made g h p.level hp.level_lt_size (List.nodup_append.mp hp.nodup).2.1
    made rest hmade i
  -- What a lowering takes is in the level, so it was open in front of it.
  have hsplit : (g.basesAt i).countP (fun base => base ∉ p.order) =
      (g.basesAt i).countP (fun base => (base, i) ∈ made) + (g.openBases p made i).length := by
    rw [openBases, ← List.countP_eq_length_filter]
    have hopen : ∀ base, (base, i) ∈ made → base ∉ p.order := fun base hmem =>
      hp.level_not_mem_order base ((mem_lowerings g h p.level hp.level_lt_size base i).mp
        (hmade ▸ List.mem_append_left rest hmem)).1
    induction g.basesAt i with
    | nil => rfl
    | cons base bases ih =>
        simp only [List.countP_cons, ih, decide_eq_true_eq]
        by_cases hmem : (base, i) ∈ made
        · simp only [hmem, hopen base hmem, not_false_eq_true, not_true_eq_false, and_false,
            if_true, if_false]
          omega
        · simp only [hmem, not_false_eq_true, and_true, if_false]
          omega
  rw [Progress.lowered, foldl_settle_remaining, hp.remaining i hi, Option.map_some, hcount, hsplit,
    Nat.add_sub_cancel_left]

/-- A counter that is about to be lowered is positive. -/
theorem lowered_pos (base derived : Nat) (rest' : List (Nat × Nat))
    (hrest : rest = (base, derived) :: rest') :
    ∃ n, (p.lowered made)[derived]? = some (n + 1) := by
  subst hrest
  rcases (mem_lowerings g h p.level hp.level_lt_size base derived).mp
    (hmade ▸ List.mem_append_right made List.mem_cons_self) with ⟨hlevel, hderived, hbase⟩
  have hdistinct := nodup_lowerings g h p.level hp.level_lt_size (List.nodup_append.mp hp.nodup).2.1
  rw [hmade] at hdistinct
  have hnew : (base, derived) ∉ made := fun hmem =>
    (List.nodup_append.mp hdistinct).2.2 _ hmem _ List.mem_cons_self rfl
  have hopen : base ∈ g.openBases p made derived :=
    List.mem_filter.mpr ⟨hbase, decide_eq_true ⟨hp.level_not_mem_order base hlevel, hnew⟩⟩
  refine ⟨(g.openBases p made derived).length - 1, ?_⟩
  rw [getElem?_lowered g h p hp made _ hmade derived hderived]
  have := List.length_pos_of_mem hopen
  congr 1
  omega

end Level

section Rounds

variable (g : ClassGraph)

theorem before_invariant (h : g.WellFormed) (rounds : Nat) : (g.before rounds).Invariant g := by
  induction rounds with
  | zero => exact start_invariant g h
  | succ rounds ih => exact before_succ g rounds ▸ step_invariant g h _ ih

/-- The classes placed so far are those of the levels so far. -/
theorem order_before (rounds : Nat) :
    (g.before rounds).order = (List.range rounds).flatMap fun k => (g.before k).level := by
  induction rounds with
  | zero => rfl
  | succ rounds ih =>
      rw [before_succ, order_step, ih, List.range_succ, List.flatMap_append, List.flatMap_singleton]

/-- Every level that is not empty places a class. -/
theorem le_length_order_before (rounds : Nat)
    (hlevels : ∀ k < rounds, (g.before k).level ≠ []) :
    rounds ≤ (g.before rounds).order.length := by
  induction rounds with
  | zero => exact Nat.zero_le _
  | succ rounds ih =>
      have hold := ih fun k hk => hlevels k (Nat.lt_succ_of_lt hk)
      have hnew := List.length_pos_iff.mpr (hlevels rounds (Nat.lt_succ_self rounds))
      rw [before_succ, order_step, List.length_append]
      omega

/-- A run stops at the first empty level, unless its rounds run out before. -/
theorem run_eq_before (placed rounds : Nat) :
    ∃ more ≤ rounds, Progress.run g.dependents rounds (g.before placed) = g.before (placed + more) ∧
      (∀ k, placed ≤ k → k < placed + more → (g.before k).level ≠ []) ∧
      (more < rounds → (g.before (placed + more)).level = []) := by
  induction rounds generalizing placed with
  | zero =>
      exact ⟨0, Nat.le_refl 0, rfl, fun k hle hlt => absurd hlt (Nat.not_lt_of_le hle),
        fun hlt => absurd hlt (Nat.lt_irrefl 0)⟩
  | succ rounds ih =>
      unfold Progress.run
      by_cases hempty : (g.before placed).level.isEmpty
      · rw [if_pos hempty]
        exact ⟨0, Nat.zero_le _, rfl, fun k hle hlt => absurd hlt (Nat.not_lt_of_le hle),
          fun _ => List.isEmpty_iff.mp hempty⟩
      · rw [if_neg hempty, ← before_succ]
        rcases ih (placed + 1) with ⟨more, hle, hrun, hlevels, hend⟩
        rw [Nat.add_assoc, Nat.add_comm 1 more] at hrun hlevels hend
        refine ⟨more + 1, Nat.succ_le_succ hle, hrun, fun k hk hlt => ?_, fun hlt => ?_⟩
        · rcases Nat.eq_or_lt_of_le hk with rfl | hk
          · exact fun hc => hempty (List.isEmpty_iff.mpr hc)
          · exact hlevels k hk hlt
        · exact hend (Nat.lt_of_succ_lt_succ hlt)

/-- The loop ends at the first empty level, and there is one after no more levels than classes. -/
theorem finish_eq_before (h : g.WellFormed) :
    ∃ rounds ≤ g.size, (∀ k < rounds, (g.before k).level ≠ []) ∧ (g.before rounds).level = [] ∧
      g.finish = g.before rounds := by
  rcases run_eq_before g 0 (g.size + 1) with ⟨rounds, _, hrun, hlevels, hend⟩
  rw [Nat.zero_add] at hrun hlevels hend
  have hnonempty : ∀ k < rounds, (g.before k).level ≠ [] := fun k => hlevels k (Nat.zero_le k)
  have hle : rounds ≤ g.size :=
    (le_length_order_before g rounds hnonempty).trans (before_invariant g h rounds).length_order_le
  exact ⟨rounds, hle, hnonempty, hend (Nat.lt_succ_of_le hle), hrun⟩

end Rounds

end ClassGraph

open ClassGraph in
/-- For the classes of any module, whatever their names and bases. In front of a level and after
    each lowering in it, the counter of a class is the number of its bases, each counted once, that
    have neither been placed nor taken from it in this level. A counter that is lowered is positive.
    No class is in a level twice or in two levels, and the loop ends at the first empty level, which
    comes after no more levels than there are classes. -/
theorem ofClasses_counters (classes : List ClassRecord) :
    let g := ofClasses classes
    (∀ i, (g.basesAt i).Nodup ∧ ∀ base, base ∈ g.basesAt i ↔ BaseAt classes base i) ∧
    (∀ rounds, (g.before rounds).lowered [] = (g.before rounds).remaining ∧
      (g.before rounds).lowered (g.lowerings (g.before rounds).level) =
        (g.before (rounds + 1)).remaining) ∧
    (∀ rounds made rest, g.lowerings (g.before rounds).level = made ++ rest →
      (∀ i < classes.length, ((g.before rounds).lowered made)[i]? =
        some (g.openBases (g.before rounds) made i).length) ∧
      ∀ base derived rest', rest = (base, derived) :: rest' →
        ∃ n, ((g.before rounds).lowered made)[derived]? = some (n + 1)) ∧
    (∀ rounds, ((List.range rounds).flatMap fun k => (g.before k).level).Nodup) ∧
    ∃ rounds ≤ classes.length, (∀ k < rounds, (g.before k).level ≠ []) ∧
      (g.before rounds).level = [] ∧ g.finish = g.before rounds := by
  intro g
  have h : g.WellFormed := wellFormed_ofClasses classes
  have hsize : g.size = classes.length := size_ofClasses classes
  refine ⟨fun i => ⟨h.nodup i, fun base => ?_⟩, fun rounds => ⟨rfl, ?_⟩,
    fun rounds made rest hmade => ?_, fun rounds => ?_, hsize ▸ finish_eq_before g h⟩
  · rw [← isBase_ofClasses_eq]
    rfl
  · rw [before_succ, remaining_step_eq]
  · have hp := before_invariant g h rounds
    refine ⟨fun i hi => ?_, lowered_pos g h _ hp made rest hmade⟩
    exact getElem?_lowered g h _ hp made rest hmade i (hsize ▸ hi)
  · rw [← order_before]
    exact (List.nodup_append.mp (before_invariant g h rounds).nodup).1

open ClassGraph in
/-- The only class without bases is the fifth, and three classes lose it. When the first of them has
    lost it, the next one has two bases left. -/
theorem ofClasses_counters_tangled :
    let g := ofClasses tangledBases
    g.lowerings (g.before 0).level = [(4, 2)] ++ [(4, 3), (4, 6)] ∧
      ((g.before 0).lowered [(4, 2)])[3]? = some 2 := by
  intro g
  have hmade : g.lowerings (g.before 0).level = [(4, 2)] ++ [(4, 3), (4, 6)] := by cbv
  have hcounter := ((ofClasses_counters tangledBases).2.2.1 0 _ _ hmade).1 3 (by decide)
  have hopen : g.openBases (g.before 0) [(4, 2)] 3 = [4, 1] := by cbv
  rw [hopen] at hcounter
  exact ⟨hmade, hcounter⟩

end HeaderBinding
