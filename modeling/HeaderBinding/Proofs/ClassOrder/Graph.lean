import HeaderBinding.Assembly.ClassGraph
import HeaderBinding.Proofs.Slots
import Mathlib.Data.List.Induction
import Mathlib.Data.List.Range

/-!
# The Graph of the Classes

What a class graph holds, read off the list of class records it was made from.

A position in the list is a class, and `basesAt` gives the positions of its bases. A superclass is a
spelling and stands for the last class of that name, or for none, when the base belongs elsewhere.
`mem_basesAt_ofClasses` says so without the table of positions, and is all the rest needs to know
about names.

The loop that orders the classes walks the graph the other way, from a base to the classes it
releases. It does so through a table that was filled edge by edge. `getD_dependents` reads the table
back: at a base stand the classes that have it, each once because no class lists a base twice, and
in ascending order because they were entered in it.

## Main definitions

* `ClassGraph.basesAt`: The bases of the class at a position.
* `ClassGraph.WellFormed`: Bases are classes of the graph, none of them listed twice.

## Theorems

* `ClassGraph.getElem?_lastPositions`: A name stands for its last class.
* `ClassGraph.mem_resolve`: Resolving names finds what they stand for.
* `ClassGraph.wellFormed_ofClasses`: The graph of a list of classes is well formed.
* `ClassGraph.mem_basesAt_ofClasses`: The bases of a class by their names.
* `ClassGraph.getD_dependents`: The classes that have a base.
-/

namespace HeaderBinding

namespace ClassGraph

/-- The bases of the class at a position. -/
def basesAt (g : ClassGraph) (position : Nat) : List Nat :=
  g.bases.getD position []

/-- Bases are classes of the graph, and no class lists one of them twice. -/
structure WellFormed (g : ClassGraph) : Prop where
  size_bases : g.bases.size = g.size
  nodup : ∀ position, (g.basesAt position).Nodup
  lt_size : ∀ position, ∀ base ∈ g.basesAt position, base < g.size

theorem lastPositions_append_singleton (names : List String) (name : String) :
    lastPositions (names ++ [name]) = (lastPositions names).insert name names.length := by
  rw [lastPositions, List.zipIdx_append, List.foldl_append, Nat.zero_add]
  rfl

/-- A name stands for the last class that bears it. -/
theorem getElem?_lastPositions (names : List String) (name : String) (position : Nat) :
    (lastPositions names)[name]? = some position ↔
      names[position]? = some name ∧ ∀ later, position < later → names[later]? ≠ some name := by
  induction names using List.reverseRecOn with
  | nil =>
      simp only [lastPositions, List.zipIdx_nil, List.foldl_nil, Std.HashMap.getElem?_empty,
        List.getElem?_nil, reduceCtorEq, false_and]
  | append_singleton names last ih =>
      rw [lastPositions_append_singleton, Std.HashMap.getElem?_insert]
      simp only [ne_eq, getElem?_append_singleton_eq_some_iff, not_or, not_and]
      by_cases hname : last = name
      · -- The class just added is the last of its name.
        rw [if_pos (beq_iff_eq.mpr hname), Option.some.injEq]
        constructor
        · intro heq
          refine ⟨Or.inr ⟨heq.symm, hname⟩, fun later hlt => ⟨fun hc => ?_, fun hc => ?_⟩⟩
          · have := (List.getElem?_eq_some_iff.mp hc).1
            omega
          · omega
        · rintro ⟨hget | hget, hlater⟩
          · have hlt := (List.getElem?_eq_some_iff.mp hget).1
            exact absurd hname ((hlater names.length hlt).2 rfl)
          · exact hget.1.symm
      · -- Another name still stands for the class it stood for.
        rw [if_neg (by rw [beq_iff_eq]; exact hname), ih]
        simp only [hname, and_false, or_false, not_false_eq_true, implies_true, and_true, ne_eq]

/-- The positions found so far after one more name. -/
theorem resolve_append_singleton (positions : Std.HashMap String Nat) (names : List String)
    (name : String) :
    resolve positions (names ++ [name]) =
      match positions[name]? with
      | some target =>
        if (resolve positions names).contains target then resolve positions names
        else resolve positions names ++ [target]
      | none => resolve positions names := by
  unfold resolve
  exact List.foldl_append

/-- Resolving names finds what each of them stands for, and nothing else. -/
theorem mem_resolve (positions : Std.HashMap String Nat) (names : List String) (target : Nat) :
    target ∈ resolve positions names ↔ ∃ name ∈ names, positions[name]? = some target := by
  induction names using List.reverseRecOn with
  | nil => simp only [resolve, List.foldl_nil, List.not_mem_nil, false_and, exists_false]
  | append_singleton names last ih =>
      rw [resolve_append_singleton]
      simp only [List.mem_append, List.mem_singleton, or_and_right, exists_or, exists_eq_left,
        ← ih]
      rcases hlast : positions[last]? with _ | found
      · -- A name that stands for nothing adds no position.
        simp only [reduceCtorEq, or_false]
      · by_cases hold : (resolve positions names).contains found
        · have hmem := List.contains_iff_mem.mp hold
          simp only [hold, if_true, Option.some.injEq]
          exact ⟨Or.inl, fun h => h.elim id (fun heq => heq ▸ hmem)⟩
        · simp only [hold, Bool.false_eq_true, if_false, List.mem_append, List.mem_singleton,
            Option.some.injEq, eq_comm]

/-- A position is found once, however often its name is mentioned. -/
theorem nodup_resolve (positions : Std.HashMap String Nat) (names : List String) :
    (resolve positions names).Nodup := by
  induction names using List.reverseRecOn with
  | nil => exact List.nodup_nil
  | append_singleton names last ih =>
      rw [resolve_append_singleton]
      rcases positions[last]? with _ | found
      · exact ih
      · by_cases hold : (resolve positions names).contains found
        · simp only [hold, if_true]
          exact ih
        · simp only [hold, Bool.false_eq_true, if_false]
          rw [← List.concat_eq_append, List.nodup_concat]
          exact ⟨fun hc => hold (List.contains_iff_mem.mpr hc), ih⟩

theorem size_ofClasses (classes : List ClassRecord) :
    (ofClasses classes).size = classes.length := by
  simp only [size, ofClasses, List.size_toArray, List.length_map]

theorem nameAt_ofClasses (classes : List ClassRecord) (position : Nat) (c : ClassRecord)
    (h : classes[position]? = some c) : (ofClasses classes).nameAt position = c.name := by
  simp only [nameAt, ofClasses, Array.getD_eq_getD_getElem?, List.getElem?_toArray,
    List.getElem?_map, h, Option.map_some, Option.getD_some]

theorem basesAt_ofClasses (classes : List ClassRecord) (position : Nat) :
    (ofClasses classes).basesAt position =
      match classes[position]? with
      | some c => resolve (lastPositions (classes.map (·.name))) c.superclasses
      | none => [] := by
  simp only [basesAt, ofClasses, Array.getD_eq_getD_getElem?, List.getElem?_toArray,
    List.getElem?_map]
  rcases classes[position]? with _ | c
  · rfl
  · rfl

/-- The bases of a class are the last classes of the names it derives from. -/
theorem mem_basesAt_ofClasses (classes : List ClassRecord) (position base : Nat) :
    base ∈ (ofClasses classes).basesAt position ↔
      ∃ c, classes[position]? = some c ∧ ∃ name ∈ c.superclasses,
        (classes.map (·.name))[base]? = some name ∧
          ∀ later, base < later → (classes.map (·.name))[later]? ≠ some name := by
  rw [basesAt_ofClasses]
  rcases classes[position]? with _ | c
  · simp only [List.not_mem_nil, reduceCtorEq, false_and, exists_false]
  · simp only [mem_resolve, getElem?_lastPositions, Option.some.injEq, exists_eq_left']

theorem wellFormed_ofClasses (classes : List ClassRecord) : (ofClasses classes).WellFormed := by
  refine ⟨?_, fun position => ?_, fun position base hbase => ?_⟩
  · simp only [ofClasses, size, List.size_toArray, List.length_map]
  · rw [basesAt_ofClasses]
    rcases classes[position]? with _ | c
    · exact List.nodup_nil
    · exact nodup_resolve _ _
  · rcases (mem_basesAt_ofClasses classes position base).mp hbase with ⟨_, _, name, _, hget, _⟩
    have hlt := (List.getElem?_eq_some_iff.mp hget).1
    rw [List.length_map] at hlt
    rw [size_ofClasses]
    exact hlt

/-- Entering one class under each of its bases. -/
theorem getElem?_enter (bases : List Nat) (hnodup : bases.Nodup) (derived : Nat)
    (table : Array (List Nat)) (base : Nat) :
    (bases.foldl (fun table base => table.modify base (· ++ [derived])) table)[base]? =
      table[base]?.map fun entry => if base ∈ bases then entry ++ [derived] else entry := by
  induction bases generalizing table with
  | nil => simp only [List.foldl_nil, List.not_mem_nil, if_false, Option.map_id_fun', id_eq]
  | cons first rest ih =>
      rw [List.nodup_cons] at hnodup
      rw [List.foldl_cons, ih hnodup.2, Array.getElem?_modify]
      by_cases hfirst : first = base
      · -- The base stands first, so it does not stand again further on.
        subst hfirst
        simp only [if_true, hnodup.1, if_false, List.mem_cons, true_or, Option.map_id_fun', id_eq]
      · simp only [hfirst, if_false, List.mem_cons, Ne.symm hfirst, false_or]

/-- Entering the classes one after the other, each under its bases. -/
theorem getElem?_enterAll (bases : List (List Nat)) (hnodup : ∀ l ∈ bases, l.Nodup) (size : Nat)
    (base : Nat) (hbase : base < size) :
    (bases.zipIdx.foldl (fun table (bases, derived) =>
      bases.foldl (fun table base => table.modify base (· ++ [derived])) table)
      (Array.replicate size []))[base]? =
        some ((List.range bases.length).filter fun derived => base ∈ bases.getD derived []) := by
  induction bases using List.reverseRecOn with
  | nil =>
      rw [List.zipIdx_nil, List.foldl_nil, Array.getElem?_replicate, if_pos hbase]
      rfl
  | append_singleton bases last ih =>
      -- The last class goes behind those entered before, under each of its bases.
      have hlast : (bases ++ [last]).getD bases.length [] = last := by
        rw [List.getD_eq_getElem?_getD, List.getElem?_concat_length, Option.getD_some]
      have hrest : (List.range bases.length).filter
          (fun derived => base ∈ (bases ++ [last]).getD derived []) =
          (List.range bases.length).filter fun derived => base ∈ bases.getD derived [] := by
        refine List.filter_congr (fun derived hderived => ?_)
        rw [List.getD_eq_getElem?_getD, List.getD_eq_getElem?_getD,
          List.getElem?_append_left (List.mem_range.mp hderived)]
      rw [List.zipIdx_append, List.foldl_append, Nat.zero_add, List.zipIdx_singleton,
        List.foldl_cons, List.foldl_nil,
        getElem?_enter last (hnodup last (List.mem_append_right _ (List.mem_singleton.mpr rfl))),
        ih (fun l hl => hnodup l (List.mem_append_left _ hl)), Option.map_some,
        List.length_append, List.length_singleton, List.range_succ, List.filter_append, hrest,
        List.filter_singleton, hlast]
      by_cases hmem : base ∈ last
      · simp only [hmem, if_true, decide_true, cond_true]
      · simp only [hmem, if_false, decide_false, cond_false, List.append_nil]

/-- At a base stand the classes that have it, in ascending order. -/
theorem getD_dependents (g : ClassGraph) (h : g.WellFormed) (base : Nat) (hbase : base < g.size) :
    g.dependents.getD base [] =
      (List.range g.size).filter fun derived => base ∈ g.basesAt derived := by
  have hnodup : ∀ l ∈ g.bases.toList, l.Nodup := by
    intro l hl
    rcases List.mem_iff_getElem?.mp hl with ⟨position, hget⟩
    have hbases : g.basesAt position = l := by
      rw [basesAt, Array.getD_eq_getD_getElem?, ← Array.getElem?_toList, hget, Option.getD_some]
    rw [← hbases]
    exact h.nodup position
  rw [dependents, Array.getD_eq_getD_getElem?, getElem?_enterAll _ hnodup _ _ hbase,
    Option.getD_some, Array.length_toList, h.size_bases]
  refine List.filter_congr (fun derived _ => ?_)
  rw [basesAt, Array.getD_eq_getD_getElem?, List.getD_eq_getElem?_getD, Array.getElem?_toList]

end ClassGraph

end HeaderBinding
