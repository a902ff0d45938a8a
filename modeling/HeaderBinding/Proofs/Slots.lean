import Mathlib.Data.List.Nodup
import Std.Data.HashMap

/-!
# Slots of a List

Facts about positions in a list that the standard library states in other terms. The symbol maps,
the class graphs and the walk through a header keep positions in a table of their own, and each has
to say what a position means after one more item and that a name has no second one. An order of
classes is a list of positions, and turning it into a list of classes keeps every place.

A table from names to slots is right if it holds the slot of every name and nothing besides. Two
slots of one name would claim one entry of the table, so the names are distinct without a word about
it.

## Main definitions

* `IndexesSlots`: A table that holds the slot of each name.
* `Slotted`: Items with a property, and the table of their names.

## Theorems

* `getElem?_append_singleton_eq_some_iff`: The slots of a list with one more item.
* `map_set_of_getElem?`: A slot whose item is exchanged for one that looks the same.
* `IndexesSlots.nodup`, `IndexesSlots.eq_none_iff`: The names of a table that is right.
* `IndexesSlots.push`: A table that is right, with one more name.
* `Slotted.push`, `Slotted.set`: One more item, and an item exchanged for another of its name.
* `slot_unique`: An item of a list without repetitions has one slot.
* `getElem?_filterMap_of_isSome`: A list of positions and the items at them.
* `filterMap_range_getElem?`: All positions in order give back the list.
-/

namespace HeaderBinding

variable {α : Type}

/-- One more item takes the slot behind the last and leaves the others. -/
theorem getElem?_append_singleton_eq_some_iff (l : List α) (item found : α) (slot : Nat) :
    (l ++ [item])[slot]? = some found ↔
      l[slot]? = some found ∨ slot = l.length ∧ item = found := by
  -- A slot before the last one, the last one, or one behind the end.
  rcases Nat.lt_trichotomy slot l.length with hlt | heq | hgt
  · rw [List.getElem?_append_left hlt]
    exact ⟨Or.inl, fun h => h.elim id (fun hc => absurd hc.1 (by omega))⟩
  · rw [heq, List.getElem?_concat_length, List.getElem?_eq_none (Nat.le_refl _)]
    simp only [Option.some.injEq, reduceCtorEq, true_and, false_or]
  · have hlen : (l ++ [item]).length ≤ slot := by
      rw [List.length_append, List.length_singleton]
      omega
    rw [List.getElem?_eq_none hlen, List.getElem?_eq_none (Nat.le_of_lt hgt)]
    simp only [reduceCtorEq, false_or, false_iff, not_and]
    omega

/-- An item of a list without repetitions has one slot. -/
theorem slot_unique (l : List α) (h : l.Nodup) (i j : Nat) (a : α) (hi : l[i]? = some a)
    (hj : l[j]? = some a) : i = j :=
  (List.getElem?_inj (List.getElem?_eq_some_iff.mp hi).1 h).mp (hi.trans hj.symm)

/-- An item put in a slot in place of one that looks the same changes no look. -/
theorem map_set_of_getElem? {β : Type} (l : List α) (f : α → β) (slot : Nat) (old new : α)
    (hold : l[slot]? = some old) (hlook : f new = f old) : (l.set slot new).map f = l.map f := by
  refine List.ext_getElem? (fun i => ?_)
  rw [List.map_set, List.getElem?_set, List.getElem?_map, List.length_map]
  -- Only one slot is written to.
  by_cases hi : slot = i
  · subst hi
    rw [if_pos rfl, if_pos (List.getElem?_eq_some_iff.mp hold).1, hold, Option.map_some, hlook]
  · rw [if_neg hi]

/-- The table holds the slot of each name and nothing besides. -/
def IndexesSlots (index : Std.HashMap String Nat) (names : List String) : Prop :=
  ∀ (name : String) (slot : Nat), index[name]? = some slot ↔ names[slot]? = some name

namespace IndexesSlots

variable {index : Std.HashMap String Nat} {names : List String}

theorem empty : IndexesSlots ∅ [] := by
  intro name slot
  simp only [Std.HashMap.getElem?_empty, List.getElem?_nil, reduceCtorEq]

/-- Two slots of one name would both be the one the table holds. -/
theorem nodup (h : IndexesSlots index names) : names.Nodup := by
  rw [List.nodup_iff_getElem?_ne_getElem?]
  intro i j hij hj hc
  have hname : names[j]? = some names[j] := List.getElem?_eq_getElem hj
  have hi := (h names[j] i).mpr (hc.trans hname)
  rw [(h names[j] j).mpr hname, Option.some.injEq] at hi
  omega

/-- A name without a slot is no name of the list. -/
theorem eq_none_iff (h : IndexesSlots index names) (name : String) :
    index[name]? = none ↔ name ∉ names := by
  constructor
  · intro hnone hmem
    rcases List.mem_iff_getElem?.mp hmem with ⟨slot, hslot⟩
    rw [(h name slot).mpr hslot] at hnone
    exact absurd hnone (by simp only [reduceCtorEq, not_false_eq_true])
  · intro hmem
    rcases hget : index[name]? with _ | slot
    · rfl
    · exact absurd (List.mem_of_getElem? ((h name slot).mp hget)) hmem

/-- A new name takes the slot behind the last. -/
theorem push (h : IndexesSlots index names) (new : String) (hnew : new ∉ names) :
    IndexesSlots (index.insert new names.length) (names ++ [new]) := by
  intro name slot
  rw [Std.HashMap.getElem?_insert, getElem?_append_singleton_eq_some_iff]
  by_cases hname : new = name
  · -- The name is new, so no slot before the last can hold it.
    have hnone : names[slot]? ≠ some name := by
      intro hc
      rw [hname] at hnew
      exact hnew (List.mem_of_getElem? hc)
    rw [if_pos (beq_iff_eq.mpr hname), Option.some.injEq]
    simp only [hnone, hname, false_or, and_true, eq_comm]
  · rw [if_neg (by rw [beq_iff_eq]; exact hname), h name slot]
    simp only [hname, and_false, or_false]

end IndexesSlots

/-- Items that all have a property, with a table of the slots of their names. -/
structure Slotted (P : α → Prop) (name : α → String) (index : Std.HashMap String Nat)
    (items : List α) : Prop where
  forall_mem : ∀ a ∈ items, P a
  index : IndexesSlots index (items.map name)

namespace Slotted

variable {P : α → Prop} {name : α → String} {index : Std.HashMap String Nat} {items : List α}

theorem empty : Slotted P name ∅ [] :=
  ⟨fun _ h => absurd h List.not_mem_nil, IndexesSlots.empty⟩

/-- What stands in the slot of a name bears it. -/
theorem name_eq (h : Slotted P name index items) {key : String} {slot : Nat} {a : α}
    (hslot : index[key]? = some slot) (ha : items[slot]? = some a) : name a = key := by
  have hget := (h.index key slot).mp hslot
  rw [List.getElem?_map, ha] at hget
  exact Option.some.inj hget

/-- Something stands in the slot of a name. -/
theorem exists_getElem? (h : Slotted P name index items) {key : String} {slot : Nat}
    (hslot : index[key]? = some slot) : ∃ a, items[slot]? = some a := by
  have hget := (h.index key slot).mp hslot
  rw [List.getElem?_map, Option.map_eq_some_iff] at hget
  exact hget.imp fun _ => And.left

/-- An item whose name has no slot goes to the end. -/
theorem push (h : Slotted P name index items) (new : α) (hnew : P new)
    (hslot : index[name new]? = none) :
    Slotted P name (index.insert (name new) items.length) (items ++ [new]) := by
  have hpush := h.index.push (name new) ((h.index.eq_none_iff (name new)).mp hslot)
  rw [List.length_map] at hpush
  refine ⟨List.forall_mem_append.mpr ⟨h.forall_mem, List.forall_mem_singleton.mpr hnew⟩, ?_⟩
  rw [List.map_append]
  exact hpush

/-- An item is exchanged for another of its name. -/
theorem set (h : Slotted P name index items) {slot : Nat} {old new : α}
    (hold : items[slot]? = some old) (hnew : P new) (hname : name new = name old) :
    Slotted P name index (items.set slot new) := by
  refine ⟨fun a ha => ?_, ?_⟩
  -- Every item is an old one or the new one.
  · rcases List.mem_or_eq_of_mem_set ha with ha | rfl
    · exact h.forall_mem a ha
    · exact hnew
  · rw [map_set_of_getElem? items name slot old new hold hname]
    exact h.index

end Slotted

/-- Where nothing is left out, every item keeps its place. -/
theorem getElem?_filterMap_of_isSome {β : Type} (l : List α) (f : α → Option β)
    (h : ∀ a ∈ l, (f a).isSome) (slot : Nat) :
    (l.filterMap f)[slot]? = l[slot]?.bind f := by
  induction l generalizing slot with
  | nil => rfl
  | cons a l ih =>
      rcases Option.isSome_iff_exists.mp (h a (List.mem_cons_self ..)) with ⟨b, hb⟩
      -- The first item stays, and the others move up by one in both lists.
      rw [List.filterMap_cons_some hb]
      cases slot with
      | zero =>
          rw [List.getElem?_cons_zero, List.getElem?_cons_zero, Option.bind_some, hb]
      | succ slot =>
          rw [List.getElem?_cons_succ, List.getElem?_cons_succ]
          exact ih (fun x hx => h x (List.mem_cons_of_mem _ hx)) slot

/-- The items at all positions are the list. -/
theorem filterMap_range_getElem? (l : List α) :
    (List.range l.length).filterMap (fun slot => l[slot]?) = l := by
  refine List.ext_getElem? (fun slot => ?_)
  rw [getElem?_filterMap_of_isSome]
  · by_cases hlt : slot < l.length
    · rw [List.getElem?_range hlt, Option.bind_some]
    · rw [List.getElem?_eq_none (by rw [List.length_range]; omega), Option.bind_none,
        List.getElem?_eq_none (by omega)]
  · intro i hi
    rw [List.getElem?_eq_getElem (List.mem_range.mp hi)]
    rfl

end HeaderBinding
