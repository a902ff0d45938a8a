import HeaderBinding.Proofs.ClassOrder.Graph
import Mathlib.Data.List.Perm.Basic
import Mathlib.Logic.Relation

/-!
# Placing Classes Level by Level

What the loop that orders the classes keeps, and where it ends.

The loop holds a counter for each class and lowers it whenever a base of the class is placed. The
counter is only a device. `Progress.Invariant` says what it counts, the bases still open, and that
the classes of the next level are exactly those without any. Everything else is about which classes
have been placed, and the counters are not heard of again.

A level is worked off in two nested folds, over its classes and over the classes each of them
releases. Both come down to one fold over one list of lowerings, each of them a base in the level
and a class that has it. None is made twice, as no class is in the level twice and none lists a base
twice. So a counter falls by the number of bases that its class has in the level (`count_made`), and
the class is released when the counter has fallen by all it had. That happens at its last lowering
and at no other, which is why no class is released twice.

When a level comes out empty, a class has been placed if and only if all its bases have. Placed
classes rest on finitely many chains of bases, and a class that does is placed as soon as its bases
are, so the placed classes are the accessible ones. Nothing in that mentions the order in which the
classes were listed.

## Main definitions

* `ClassGraph.IsBase`: The class at a position is a base of another.
* `ClassGraph.Progress.Invariant`: What holds between two levels.
* `ClassGraph.lowerings`: The lowerings of a level.

## Theorems

* `ClassGraph.mem_lowerings`, `ClassGraph.nodup_lowerings`: Each base of a class once.
* `ClassGraph.foldl_settle_remaining`, `ClassGraph.count_foldl_settle`: Settling a list of classes.
* `ClassGraph.mem_level_step`: The classes that a level releases.
* `ClassGraph.mem_step_iff`, `ClassGraph.remaining_step`: What a level does to the whole.
* `ClassGraph.step_invariant`: Placing a level keeps the invariant.
* `ClassGraph.run_invariant`: So do all levels one after the other.
* `ClassGraph.finish_level`: The last level is empty.
* `ClassGraph.mem_finish_iff`: The classes that are placed in the end.
-/

namespace HeaderBinding

namespace ClassGraph

/-- The class at `base` is a base of the class at `derived`. -/
def IsBase (g : ClassGraph) (base derived : Nat) : Prop :=
  base ∈ g.basesAt derived

/-- What holds between two levels. -/
structure Progress.Invariant (g : ClassGraph) (p : Progress) : Prop where
  /-- No class is placed or about to be placed twice. -/
  nodup : (p.order ++ p.level).Nodup
  /-- Placed or about to be placed are the classes whose bases have all been placed. -/
  mem_iff : ∀ i, i ∈ p.order ++ p.level ↔ i < g.size ∧ ∀ base ∈ g.basesAt i, base ∈ p.order
  /-- The counter of a class is the number of its open bases. -/
  remaining : ∀ i < g.size,
    p.remaining[i]? = some ((g.basesAt i).countP fun base => base ∉ p.order)
  /-- A class stands behind its bases. -/
  bases_first : ∀ derived ∈ p.order, ∀ base ∈ g.basesAt derived,
    p.order.idxOf base < p.order.idxOf derived
  /-- Every chain of bases below a class comes to an end. -/
  accessible : ∀ i ∈ p.order ++ p.level, Acc g.IsBase i

theorem settle_remaining (state : Array Nat × List Nat) (first : Nat) :
    (Progress.settle state first).1 = state.1.modify first (· - 1) := by
  simp only [Progress.settle]
  split
  · rfl
  · rfl

/-- Settling one class adds it to the released ones if that was its last open base. -/
theorem settle_released (state : Array Nat × List Nat) (first : Nat) :
    (Progress.settle state first).2 =
      if state.1[first]?.map (· - 1) = some 0 then state.2 ++ [first] else state.2 := by
  simp only [Progress.settle, Array.getElem?_modify, if_true]
  split
  · rfl
  · rfl

/-- The counter of a class falls by the number of times the class is settled. -/
theorem foldl_settle_remaining (settled : List Nat) (state : Array Nat × List Nat) (i : Nat) :
    (settled.foldl Progress.settle state).1[i]? = state.1[i]?.map (· - settled.count i) := by
  induction settled generalizing state with
  | nil => simp only [List.foldl_nil, List.count_nil, Nat.sub_zero, Option.map_id_fun', id_eq]
  | cons first rest ih =>
      rw [List.foldl_cons, ih, settle_remaining, Array.getElem?_modify]
      by_cases hfirst : first = i
      · subst hfirst
        rw [if_pos rfl, Option.map_map, List.count_cons_self]
        congr 1
        funext n
        rw [Function.comp_apply]
        omega
      · rw [if_neg hfirst, List.count_cons_of_ne hfirst]

/-- A class is released once, if it is settled as often as it has open bases, and not at all if it
    is settled less often or had none to begin with. -/
theorem count_foldl_settle (settled : List Nat) (state : Array Nat × List Nat) (i due : Nat)
    (hdue : state.1[i]? = some due) (hle : settled.count i ≤ due) :
    (settled.foldl Progress.settle state).2.count i =
      state.2.count i + if 0 < due ∧ settled.count i = due then 1 else 0 := by
  induction settled generalizing state due with
  | nil =>
      rw [List.foldl_nil, List.count_nil, if_neg (by omega), Nat.add_zero]
  | cons first rest ih =>
      have hnext : (Progress.settle state first).1[i]? =
          some (due - [first].count i) := by
        have h := foldl_settle_remaining [first] state i
        rw [hdue, Option.map_some] at h
        exact h
      rw [List.foldl_cons]
      by_cases hfirst : first = i
      · subst hfirst
        rw [List.count_cons_self] at hle ⊢
        rw [List.count_singleton_self] at hnext
        rw [ih _ _ hnext (by omega), settle_released]
        by_cases hlast : due - 1 = 0
        · -- That was the last open base, and the class is not settled again.
          rw [if_pos (by rw [hdue, Option.map_some, hlast]), if_neg (by omega),
            if_pos (by omega), List.count_append, List.count_singleton_self]
        · -- Bases are still open, and whether the rest settles them all is the same question.
          rw [if_neg (by rw [hdue, Option.map_some, Option.some.injEq]; exact hlast)]
          congr 1
          by_cases hall : rest.count first = due - 1
          · rw [if_pos (by omega), if_pos (by omega)]
          · rw [if_neg (by omega), if_neg (by omega)]
      · -- Settling another class leaves this one and its counter alone.
        rw [List.count_cons_of_ne hfirst] at hle ⊢
        rw [List.count_singleton, if_neg (by rw [beq_iff_eq]; exact hfirst), Nat.sub_zero] at hnext
        rw [ih _ _ hnext hle, settle_released]
        congr 1
        split
        · rw [List.count_append, List.count_singleton, if_neg (by rw [beq_iff_eq]; exact hfirst),
            Nat.add_zero]
        · rfl

/-- Only settled classes are released. -/
theorem mem_of_mem_foldl_settle (settled : List Nat) (state : Array Nat × List Nat) (i : Nat)
    (h : i ∈ (settled.foldl Progress.settle state).2) : i ∈ state.2 ∨ i ∈ settled := by
  induction settled generalizing state with
  | nil => exact Or.inl h
  | cons first rest ih =>
      rw [List.foldl_cons] at h
      rcases ih _ h with hstate | hrest
      · rw [settle_released] at hstate
        split at hstate
        · rcases List.mem_append.mp hstate with hold | hfirst
          · exact Or.inl hold
          · exact Or.inr (List.mem_cons.mpr (Or.inl (List.mem_singleton.mp hfirst)))
        · exact Or.inl hstate
      · exact Or.inr (List.mem_cons_of_mem _ hrest)

/-- The classes that the nodes of a level settle, in the order in which that happens. -/
def settledBy (g : ClassGraph) (level : List Nat) : List Nat :=
  level.flatMap fun node => g.dependents.getD node []

/-- The lowerings of a level in their order: a class of the level, and a class that has it as a
    base. -/
def lowerings (g : ClassGraph) (level : List Nat) : List (Nat × Nat) :=
  level.flatMap fun base => (g.dependents.getD base []).map fun derived => (base, derived)

theorem map_snd_lowerings (g : ClassGraph) (level : List Nat) :
    (g.lowerings level).map (·.2) = g.settledBy level := by
  simp only [lowerings, settledBy, List.map_flatMap, List.map_map, Function.comp_def, List.map_id']

/-- Both folds over a level are one fold over the classes it settles. -/
theorem step_eq (g : ClassGraph) (p : Progress) :
    p.step g.dependents =
      { remaining := ((g.settledBy p.level).foldl Progress.settle (p.remaining, [])).1
        level := ((g.settledBy p.level).foldl Progress.settle (p.remaining, [])).2.mergeSort
        order := p.order ++ p.level } := by
  rw [settledBy, List.foldl_flatMap]
  rfl

theorem lt_size_of_mem_settledBy (g : ClassGraph) (h : g.WellFormed) (level : List Nat)
    (hlevel : ∀ node ∈ level, node < g.size) (i : Nat) (hi : i ∈ g.settledBy level) :
    i < g.size := by
  rcases List.mem_flatMap.mp hi with ⟨node, hnode, hmem⟩
  rw [getD_dependents g h node (hlevel node hnode)] at hmem
  exact List.mem_range.mp (List.mem_filter.mp hmem).1

section Lowerings

variable (g : ClassGraph) (h : g.WellFormed) (level : List Nat)
  (hlevel : ∀ node ∈ level, node < g.size)
include h hlevel

/-- A level lowers a counter for every base of the class that is in the level. -/
theorem mem_lowerings (base derived : Nat) :
    (base, derived) ∈ g.lowerings level ↔
      base ∈ level ∧ derived < g.size ∧ base ∈ g.basesAt derived := by
  simp only [lowerings, List.mem_flatMap, List.mem_map, Prod.mk.injEq]
  constructor
  · rintro ⟨node, hnode, _, hderived, rfl, rfl⟩
    rw [getD_dependents g h node (hlevel node hnode), List.mem_filter, List.mem_range,
      decide_eq_true_eq] at hderived
    exact ⟨hnode, hderived⟩
  · rintro ⟨hbase, hderived⟩
    refine ⟨base, hbase, derived, ?_, rfl, rfl⟩
    rw [getD_dependents g h base (hlevel base hbase), List.mem_filter, List.mem_range,
      decide_eq_true_eq]
    exact hderived

/-- No lowering is made twice in a level. -/
theorem nodup_lowerings (hnodup : level.Nodup) : (g.lowerings level).Nodup := by
  rw [lowerings, List.nodup_flatMap]
  refine ⟨fun base hbase => ?_, hnodup.imp_of_mem fun hbase hother hne => ?_⟩
  · rw [getD_dependents g h base (hlevel base hbase)]
    exact (List.nodup_range.filter _).map fun _ _ heq => (Prod.mk.inj heq).2
  · intro pair hpair hpair'
    rcases List.mem_map.mp hpair with ⟨_, _, rfl⟩
    rcases List.mem_map.mp hpair' with ⟨_, _, heq⟩
    exact hne (Prod.mk.inj heq).1.symm

/-- A class has lost as many bases as lowerings of its counter have been made. -/
theorem count_made (hnodup : level.Nodup) (made rest : List (Nat × Nat))
    (hmade : g.lowerings level = made ++ rest) (i : Nat) :
    (made.map (·.2)).count i = (g.basesAt i).countP fun base => (base, i) ∈ made := by
  have hdistinct : made.Nodup :=
    (List.nodup_append.mp (hmade ▸ nodup_lowerings g h level hlevel hnodup)).1
  have hbase : ∀ base, (base, i) ∈ made → base ∈ g.basesAt i := fun base hmem =>
    ((mem_lowerings g h level hlevel base i).mp (hmade ▸ List.mem_append_left rest hmem)).2.2
  -- The lowerings of one counter and the bases they take are matched one to one.
  have hperm : ((made.filter (·.2 = i)).map (·.1)).Perm
      ((g.basesAt i).filter fun base => (base, i) ∈ made) := by
    rw [List.perm_ext_iff_of_nodup _ ((h.nodup i).filter _)]
    · intro base
      simp only [List.mem_map, List.mem_filter, decide_eq_true_eq, Prod.exists, exists_and_right,
        exists_eq_right]
      exact ⟨fun hmem => ⟨hbase base hmem, hmem⟩, fun hmem => hmem.2⟩
    · refine (hdistinct.filter _).map_on ?_
      rintro ⟨base, derived⟩ hmem ⟨base', derived'⟩ hmem' heq
      obtain rfl := of_decide_eq_true (List.mem_filter.mp hmem).2
      obtain rfl := of_decide_eq_true (List.mem_filter.mp hmem').2
      exact Prod.ext heq rfl
  rw [List.count, List.countP_map, List.countP_eq_length_filter, List.countP_eq_length_filter,
    ← hperm.length_eq, List.length_map]
  rfl

end Lowerings

/-- A level settles a class once for each of its bases in the level. -/
theorem count_settledBy (g : ClassGraph) (h : g.WellFormed) (level : List Nat)
    (hlevel : ∀ node ∈ level, node < g.size) (hnodup : level.Nodup) (i : Nat) (hi : i < g.size) :
    (g.settledBy level).count i = (g.basesAt i).countP fun base => base ∈ level := by
  rw [← map_snd_lowerings, count_made g h level hlevel hnodup _ [] (List.append_nil _).symm]
  refine List.countP_congr fun base hbase => ?_
  rw [decide_eq_true_eq, decide_eq_true_eq, mem_lowerings g h level hlevel]
  exact and_iff_left ⟨hi, hbase⟩

/-- Of the bases still open, those in the next level are settled and the others stay open. -/
theorem countP_not_mem_append (bases order level : List Nat)
    (hdisjoint : ∀ i ∈ level, i ∉ order) :
    bases.countP (fun base => base ∉ order) =
      bases.countP (fun base => base ∈ level) +
        bases.countP fun base => base ∉ order ++ level := by
  induction bases with
  | nil => rfl
  | cons base rest ih =>
      simp only [List.countP_cons, ih, List.mem_append, decide_eq_true_eq]
      by_cases hlevel : base ∈ level
      · simp only [hlevel, hdisjoint base hlevel, or_true, not_true_eq_false, not_false_eq_true,
          if_true, if_false]
        omega
      · by_cases horder : base ∈ order
        · simp only [hlevel, horder, true_or, not_true_eq_false, if_false]
          omega
        · simp only [hlevel, horder, or_self, not_false_eq_true, if_true, if_false]
          omega

theorem Progress.Invariant.level_lt_size {g : ClassGraph} {p : Progress} (hp : p.Invariant g)
    (node : Nat) (hnode : node ∈ p.level) : node < g.size :=
  ((hp.mem_iff node).mp (List.mem_append_right _ hnode)).1

theorem Progress.Invariant.level_not_mem_order {g : ClassGraph} {p : Progress}
    (hp : p.Invariant g) (node : Nat) (hnode : node ∈ p.level) : node ∉ p.order :=
  fun hc => (List.nodup_append.mp hp.nodup).2.2 node hc node hnode rfl

-- What is placed or about to be placed has all its bases placed already.
theorem Progress.Invariant.placed {g : ClassGraph} {p : Progress} (hp : p.Invariant g) (i : Nat)
    (hi : i ∈ p.order ++ p.level) (base : Nat) (hbase : base ∈ g.basesAt i) : base ∈ p.order :=
  ((hp.mem_iff i).mp hi).2 base hbase

/-- More classes cannot be placed than there are. -/
theorem Progress.Invariant.length_order_le {g : ClassGraph} {p : Progress} (hp : p.Invariant g) :
    p.order.length ≤ g.size := by
  have hle := (List.subperm_of_subset (List.nodup_append.mp hp.nodup).1 fun i hi =>
    List.mem_range.mpr ((hp.mem_iff i).mp (List.mem_append_left _ hi)).1).length_le
  rwa [List.length_range] at hle

section Step

variable (g : ClassGraph) (h : g.WellFormed) (p : Progress) (hp : p.Invariant g)
include h hp

/-- A level settles a class no more often than it has open bases. -/
theorem count_settledBy_level (i : Nat) (hi : i < g.size) :
    (g.settledBy p.level).count i = (g.basesAt i).countP fun base => base ∈ p.level :=
  count_settledBy g h p.level hp.level_lt_size (List.nodup_append.mp hp.nodup).2.1 i hi

/-- The classes that a level releases, with multiplicity. -/
theorem count_level_step (i : Nat) (hi : i < g.size) :
    (p.step g.dependents).level.count i =
      if (∃ base ∈ g.basesAt i, base ∈ p.level) ∧
        ∀ base ∈ g.basesAt i, base ∈ p.order ++ p.level then 1 else 0 := by
  have hcount := count_settledBy_level g h p hp i hi
  have hsplit := countP_not_mem_append (g.basesAt i) p.order p.level
    hp.level_not_mem_order
  rw [step_eq, (List.mergeSort_perm _ _).count_eq,
    count_foldl_settle _ _ i _ (hp.remaining i hi) (by omega), List.count_nil, Nat.zero_add]
  -- All open bases are settled if and only if none of them lies beyond this level.
  have hiff : (0 < (g.basesAt i).countP (fun base => base ∉ p.order) ∧
      (g.settledBy p.level).count i = (g.basesAt i).countP fun base => base ∉ p.order) ↔
      (∃ base ∈ g.basesAt i, base ∈ p.level) ∧
        ∀ base ∈ g.basesAt i, base ∈ p.order ++ p.level := by
    have hsome : 0 < (g.basesAt i).countP (fun base => base ∈ p.level) ↔
        ∃ base ∈ g.basesAt i, base ∈ p.level := by
      simp only [List.countP_pos_iff, decide_eq_true_eq]
    have hall : (g.basesAt i).countP (fun base => base ∉ p.order ++ p.level) = 0 ↔
        ∀ base ∈ g.basesAt i, base ∈ p.order ++ p.level := by
      simp only [List.countP_eq_zero, decide_eq_true_eq, not_not]
    rw [← hsome, ← hall]
    omega
  by_cases hcond : (∃ base ∈ g.basesAt i, base ∈ p.level) ∧
      ∀ base ∈ g.basesAt i, base ∈ p.order ++ p.level
  · rw [if_pos (hiff.mpr hcond), if_pos hcond]
  · rw [if_neg (fun hc => hcond (hiff.mp hc)), if_neg hcond]

/-- A level releases the classes that have a base in it and none beyond it. -/
theorem mem_level_step (i : Nat) :
    i ∈ (p.step g.dependents).level ↔
      i < g.size ∧ (∃ base ∈ g.basesAt i, base ∈ p.level) ∧
        ∀ base ∈ g.basesAt i, base ∈ p.order ++ p.level := by
  by_cases hi : i < g.size
  · rw [← List.count_pos_iff, count_level_step g h p hp i hi]
    split
    · next hcond => exact iff_of_true Nat.one_pos ⟨hi, hcond⟩
    · next hcond => exact iff_of_false (Nat.lt_irrefl 0) (fun hc => hcond hc.2)
  · -- Only classes of the graph are settled at all.
    refine iff_of_false (fun hc => hi ?_) (fun hc => hi hc.1)
    rw [step_eq, List.mem_mergeSort] at hc
    rcases mem_of_mem_foldl_settle _ _ i hc with hnil | hsettled
    · exact absurd hnil List.not_mem_nil
    · exact lt_size_of_mem_settledBy g h p.level hp.level_lt_size i hsettled

theorem nodup_level_step : (p.step g.dependents).level.Nodup := by
  rw [List.nodup_iff_count]
  intro i
  by_cases hi : i ∈ (p.step g.dependents).level
  · rw [count_level_step g h p hp i ((mem_level_step g h p hp i).mp hi).1]
    split
    · exact Nat.le_refl 1
    · exact Nat.zero_le 1
  · rw [List.count_eq_zero.mpr hi]
    exact Nat.zero_le 1

omit h hp in
theorem order_step : (p.step g.dependents).order = p.order ++ p.level := by
  rw [step_eq]

/-- After a level, placed or about to be placed are again the classes whose bases have all been
    placed. -/
theorem mem_step_iff (i : Nat) :
    i ∈ (p.step g.dependents).order ++ (p.step g.dependents).level ↔
      i < g.size ∧ ∀ base ∈ g.basesAt i, base ∈ p.order ++ p.level := by
  rw [List.mem_append, order_step, mem_level_step g h p hp]
  constructor
  · rintro (hi | hi)
    · exact ⟨((hp.mem_iff i).mp hi).1, fun base hbase =>
        List.mem_append_left _ (hp.placed i hi base hbase)⟩
    · exact ⟨hi.1, hi.2.2⟩
  · -- All its bases were placed before, or one of them is in this level.
    rintro ⟨hi, hbases⟩
    by_cases hsome : ∃ base ∈ g.basesAt i, base ∈ p.level
    · exact Or.inr ⟨hi, hsome, hbases⟩
    · left
      refine (hp.mem_iff i).mpr ⟨hi, fun base hbase => ?_⟩
      rcases List.mem_append.mp (hbases base hbase) with hold | hlevel
      · exact hold
      · exact absurd ⟨base, hbase, hlevel⟩ hsome

/-- The counter of a class falls by the number of its bases in the level. -/
theorem remaining_step (i : Nat) (hi : i < g.size) :
    (p.step g.dependents).remaining[i]? =
      some ((g.basesAt i).countP fun base => base ∉ p.order ++ p.level) := by
  have hsplit := countP_not_mem_append (g.basesAt i) p.order p.level hp.level_not_mem_order
  rw [step_eq]
  change ((g.settledBy p.level).foldl Progress.settle (p.remaining, [])).1[i]? = _
  rw [foldl_settle_remaining, hp.remaining i hi, Option.map_some,
    count_settledBy_level g h p hp i hi]
  congr 1
  omega

omit h in
/-- The classes of a level go behind their bases, which were placed before it. -/
theorem bases_first_step (derived : Nat) (hderived : derived ∈ p.order ++ p.level) (base : Nat)
    (hbase : base ∈ g.basesAt derived) :
    (p.order ++ p.level).idxOf base < (p.order ++ p.level).idxOf derived := by
  have hold := hp.placed derived hderived base hbase
  rw [List.idxOf_append_of_mem hold]
  by_cases hbefore : derived ∈ p.order
  · rw [List.idxOf_append_of_mem hbefore]
    exact hp.bases_first derived hbefore base hbase
  · rw [List.idxOf_append_of_notMem hbefore]
    have hlt := List.idxOf_lt_length_of_mem hold
    omega

/-- Placing a level keeps the invariant. -/
theorem step_invariant : (p.step g.dependents).Invariant g := by
  have horder := order_step g p
  refine ⟨?_, fun i => ?_, fun i hi => ?_, fun derived hderived base hbase => ?_, fun i hi => ?_⟩
  · -- A released class has a base in this level, so it cannot have been placed before.
    rw [horder, List.nodup_append]
    refine ⟨hp.nodup, nodup_level_step g h p hp, fun i hi j hj heq => ?_⟩
    subst heq
    rcases ((mem_level_step g h p hp i).mp hj).2.1 with ⟨base, hbase, hlevel⟩
    exact hp.level_not_mem_order base hlevel (hp.placed i hi base hbase)
  · rw [mem_step_iff g h p hp, horder]
  · rw [remaining_step g h p hp i hi, horder]
  · rw [horder] at hderived ⊢
    exact bases_first_step g p hp derived hderived base hbase
  · rw [horder, List.mem_append] at hi
    rcases hi with hi | hi
    · exact hp.accessible i hi
    · exact Acc.intro i (fun base hbase =>
        hp.accessible base (((mem_level_step g h p hp i).mp hi).2.2 base hbase))

end Step

/-- Before the first level nothing is placed, and the classes without bases come first. -/
theorem start_invariant (g : ClassGraph) (h : g.WellFormed) : g.start.Invariant g := by
  have hremaining : ∀ i < g.size, g.start.remaining[i]? = some (g.basesAt i).length := by
    intro i hi
    have hlt : i < g.bases.size := by
      rw [h.size_bases]
      exact hi
    simp only [start, Array.getElem?_map, basesAt, Array.getD_eq_getD_getElem?,
      Array.getElem?_eq_getElem hlt, Option.map_some, Option.getD_some]
  have hlevel : ∀ i, i ∈ g.start.level ↔ i < g.size ∧ g.basesAt i = [] := by
    intro i
    change i ∈ (List.range g.size).filter (fun i => g.start.remaining[i]? = some 0) ↔ _
    rw [List.mem_filter, List.mem_range, decide_eq_true_eq]
    refine and_congr_right (fun hi => ?_)
    rw [hremaining i hi, Option.some.injEq, List.length_eq_zero_iff]
  refine ⟨?_, fun i => ?_, fun i hi => ?_, fun i hi => ?_, fun i hi => ?_⟩
  · change ([] ++ g.start.level).Nodup
    rw [List.nil_append]
    exact List.nodup_range.filter _
  · change i ∈ [] ++ g.start.level ↔ i < g.size ∧ ∀ base ∈ g.basesAt i, base ∈ []
    rw [List.nil_append, hlevel]
    simp only [List.not_mem_nil, List.eq_nil_iff_forall_not_mem]
  · change _ = some ((g.basesAt i).countP fun base => base ∉ [])
    rw [hremaining i hi]
    simp only [List.not_mem_nil, not_false_eq_true, decide_true, List.countP_true]
  · exact absurd hi List.not_mem_nil
  · change i ∈ [] ++ g.start.level at hi
    rw [List.nil_append, hlevel] at hi
    refine Acc.intro i (fun base hbase => ?_)
    rw [IsBase, hi.2] at hbase
    exact absurd hbase List.not_mem_nil

/-- A run of levels keeps the invariant, and ends with an empty level if it is given a round for
    each class that is not placed and one to spare. -/
theorem run_invariant (g : ClassGraph) (h : g.WellFormed) (rounds : Nat) (p : Progress)
    (hp : p.Invariant g) :
    (Progress.run g.dependents rounds p).Invariant g ∧
      (g.size < rounds + p.order.length → (Progress.run g.dependents rounds p).level = []) := by
  induction rounds generalizing p with
  | zero =>
      refine ⟨hp, fun hsize => ?_⟩
      have hle := hp.length_order_le
      omega
  | succ rounds ih =>
      unfold Progress.run
      by_cases hempty : p.level.isEmpty
      · rw [if_pos hempty]
        exact ⟨hp, fun _ => List.isEmpty_iff.mp hempty⟩
      · -- A level that is not empty places at least one class, which pays for the round.
        rw [if_neg hempty]
        rcases ih _ (step_invariant g h p hp) with ⟨hinv, hend⟩
        refine ⟨hinv, fun hsize => hend ?_⟩
        have hpos := List.length_pos_iff.mpr (fun hc => hempty (List.isEmpty_iff.mpr hc))
        rw [step_eq, List.length_append]
        omega

theorem finish_invariant (g : ClassGraph) (h : g.WellFormed) : g.finish.Invariant g :=
  (run_invariant g h (g.size + 1) g.start (start_invariant g h)).1

/-- The last level is empty. -/
theorem finish_level (g : ClassGraph) (h : g.WellFormed) : g.finish.level = [] := by
  refine (run_invariant g h (g.size + 1) g.start (start_invariant g h)).2 ?_
  omega

/-- In the end a class is placed if and only if all its bases are. -/
theorem mem_finish_iff_bases (g : ClassGraph) (h : g.WellFormed) (i : Nat) :
    i ∈ g.finish.order ↔ i < g.size ∧ ∀ base ∈ g.basesAt i, base ∈ g.finish.order := by
  have hmem := (finish_invariant g h).mem_iff i
  rw [finish_level g h, List.append_nil] at hmem
  exact hmem

/-- The classes that are placed in the end are those with nothing but finite chains of bases below
    them. -/
theorem mem_finish_iff (g : ClassGraph) (h : g.WellFormed) (i : Nat) :
    i ∈ g.finish.order ↔ i < g.size ∧ Acc g.IsBase i := by
  constructor
  · intro hi
    exact ⟨((mem_finish_iff_bases g h i).mp hi).1,
      (finish_invariant g h).accessible i (List.mem_append_left _ hi)⟩
  · -- Induction along the bases: they are placed, and so the class is.
    rintro ⟨hi, hacc⟩
    induction hacc with
    | intro i _ ih =>
        exact (mem_finish_iff_bases g h i).mpr ⟨hi, fun base hbase =>
          ih base hbase (h.lt_size i base hbase)⟩

end ClassGraph

end HeaderBinding
