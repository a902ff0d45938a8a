import HeaderBinding.Assembly.SymbolMap
import HeaderBinding.Proofs.Record.Folding
import HeaderBinding.Proofs.Slots
import Mathlib.Data.List.Induction

/-!
# Symbol Maps Kept in Step

What makes a look-up in a symbol map agree with the list of its items.

A map holds its items twice over, once as a list and once as an index from names to slots, and every
operation has to change both. `WellFormed` says that the index holds the slot of each item's name
and nothing besides, which is `IndexesSlots` for the names of the items.

Seen as a list, taking in an item is `declare`: the item of the same name is exchanged where it
stands, or else the new one goes to the end. Slots do not appear in it, and everything further up is
said about lists.

Folding a typedef into another gives the later one, whatever it is called. That the name survives
holds only because a slot is found by name, and `LawfulSymbol` says so for each kind.

## Main definitions

* `LawfulSymbol`: Folding a redeclaration keeps the name.
* `redeclare`: What a policy makes of two declarations of one name.
* `declare`: A list of items after one more declaration.
* `SymbolMap.names`: The names of the items, in the order of their slots.
* `SymbolMap.WellFormed`: The index holds the slot of each name.

## Theorems

* `SymbolMap.nodup_names`: Names are distinct.
* `SymbolMap.get?_eq_some_iff`: A look-up finds the item of a name.
* `SymbolMap.upsert_spec`: Putting an item in, as a list and for the index.
* `SymbolMap.insert_spec`: The same under a policy that accepts it.
* `SymbolMap.insert_reject`: A second declaration under a policy that does not.
* `SymbolMap.insert_snd_of_error`: What is refused leaves the map as it was.
* `SymbolMap.insert_eq_error_iff`: What is refused, and with which error.
-/

namespace HeaderBinding

variable {α : Type} [NamedSymbol α]

/-- Folding a later declaration of a name into the first keeps the name. -/
class LawfulSymbol (α : Type) [NamedSymbol α] : Prop where
  symbolName_mergeFrom : ∀ first later : α, symbolName later = symbolName first →
    symbolName (mergeFrom first later) = symbolName first

instance : LawfulSymbol ClassRecord where
  symbolName_mergeFrom c other _ := c.name_extend other

instance : LawfulSymbol ClassTemplate where
  symbolName_mergeFrom t other _ := t.record.name_extend other.record

instance : LawfulSymbol Typedef where
  symbolName_mergeFrom _ _ h := h

/-- What a policy makes of two declarations of one name. A policy that rejects the second never
    gets as far as asking. -/
def redeclare (policy : CollisionPolicy) (first later : α) : α :=
  match policy with
  | .merge => mergeFrom first later
  | .overwrite | .reject => later

theorem symbolName_redeclare [LawfulSymbol α] (policy : CollisionPolicy) (first later : α)
    (h : symbolName later = symbolName first) :
    symbolName (redeclare policy first later) = symbolName first := by
  cases policy with
  | overwrite => exact h
  | reject => exact h
  | merge => exact LawfulSymbol.symbolName_mergeFrom first later h

/-- A list of items after one more declaration. The item of the same name is exchanged in its
    place, and a new name goes to the end. -/
def declare (policy : CollisionPolicy) (items : List α) (item : α) : List α :=
  if symbolName item ∈ items.map symbolName then
    items.map fun a => if symbolName a = symbolName item then redeclare policy a item else a
  else items ++ [item]

theorem declare_of_mem (policy : CollisionPolicy) (items : List α) (item : α)
    (h : symbolName item ∈ items.map symbolName) :
    declare policy items item =
      items.map fun a => if symbolName a = symbolName item then redeclare policy a item else a := by
  rw [declare, if_pos h]

theorem declare_of_not_mem (policy : CollisionPolicy) (items : List α) (item : α)
    (h : symbolName item ∉ items.map symbolName) :
    declare policy items item = items ++ [item] := by
  rw [declare, if_neg h]

/-- Exchanging items of one name keeps all names in their places. -/
theorem map_symbolName_exchange [LawfulSymbol α] (policy : CollisionPolicy) (items : List α)
    (item : α) :
    (items.map fun a => if symbolName a = symbolName item then redeclare policy a item
      else a).map symbolName = items.map symbolName := by
  rw [List.map_map]
  refine List.map_congr_left (fun a _ => ?_)
  by_cases h : symbolName a = symbolName item
  · rw [Function.comp_apply, if_pos h, symbolName_redeclare policy a item h.symm]
  · rw [Function.comp_apply, if_neg h]

/-- One more declaration leaves the names that are there in their places. -/
theorem prefix_map_symbolName_declare [LawfulSymbol α] (policy : CollisionPolicy) (items : List α)
    (item : α) : items.map symbolName <+: (declare policy items item).map symbolName := by
  by_cases h : symbolName item ∈ items.map symbolName
  · have hnames : (declare policy items item).map symbolName = items.map symbolName := by
      rw [declare_of_mem policy items item h, map_symbolName_exchange]
    exact hnames ▸ List.prefix_refl _
  · rw [declare_of_not_mem policy items item h, List.map_append]
    exact List.prefix_append _ _

/-- Changing the item in the slot of a name is changing the items of that name, the names being
    distinct. -/
theorem modify_eq_map_of_slot (items : List α) (f : α → α) (slot : Nat) (name : String)
    (hnodup : (items.map symbolName).Nodup)
    (hslot : (items.map symbolName)[slot]? = some name) :
    items.modify slot f = items.map fun a => if symbolName a = name then f a else a := by
  refine List.ext_getElem? (fun i => ?_)
  rw [List.getElem?_modify, List.getElem?_map]
  rcases hget : items[i]? with _ | a
  · rfl
  · have hname : (items.map symbolName)[i]? = some (symbolName a) := by
      rw [List.getElem?_map, hget, Option.map_some]
    -- The slot of the name holds the one item of that name.
    by_cases hi : slot = i
    · have ha : symbolName a = name := by
        rw [hi, hname, Option.some.injEq] at hslot
        exact hslot
      simp only [hi, if_true, Option.map_eq_map, Option.map_some, ha]
    · have ha : symbolName a ≠ name := by
        intro hc
        rw [hc] at hname
        exact hi (slot_unique _ hnodup slot i name hslot hname)
      simp only [hi, ha, if_false, Option.map_eq_map, Option.map_some]

namespace SymbolMap

/-- The names of the items, in the order of their slots. -/
def names (s : SymbolMap α) : List String :=
  s.toList.map symbolName

/-- The index holds the slot of each item's name and nothing besides. -/
def WellFormed (s : SymbolMap α) : Prop :=
  ∀ (name : String) (slot : Nat), s.index[name]? = some slot ↔ s.names[slot]? = some name

theorem nodup_names (s : SymbolMap α) (h : s.WellFormed) : s.names.Nodup :=
  IndexesSlots.nodup h

theorem index_eq_none_iff (s : SymbolMap α) (h : s.WellFormed) (name : String) :
    s.index[name]? = none ↔ name ∉ s.names :=
  IndexesSlots.eq_none_iff h name

/-- A look-up finds the item of a name, and finds one whenever there is one. -/
theorem get?_eq_some_iff (s : SymbolMap α) (h : s.WellFormed) (name : String) (item : α) :
    s.get? name = some item ↔ item ∈ s.toList ∧ symbolName item = name := by
  have hitem : ∀ slot : Nat, s.items[slot]? = s.toList[slot]? := fun slot => by
    rw [toList, Array.getElem?_toList]
  unfold get?
  constructor
  · intro hget
    rcases hslot : s.index[name]? with _ | slot
    · rw [hslot] at hget
      exact absurd hget (by simp only [Option.bind_none, reduceCtorEq, not_false_eq_true])
    · rw [hslot, Option.bind_some, hitem] at hget
      refine ⟨List.mem_of_getElem? hget, ?_⟩
      have hname := (h name slot).mp hslot
      rw [names, List.getElem?_map, hget, Option.map_some, Option.some.injEq] at hname
      exact hname
  · intro hmem
    rcases List.mem_iff_getElem?.mp hmem.1 with ⟨slot, hslot⟩
    have hname : s.names[slot]? = some name := by
      rw [names, List.getElem?_map, hslot, Option.map_some, hmem.2]
    rw [(h name slot).mpr hname, Option.bind_some, hitem, hslot]

theorem wellFormed_empty : (empty : SymbolMap α).WellFormed := by
  intro name slot
  simp only [empty, names, toList, Std.HashMap.getElem?_empty, List.map_nil, List.getElem?_nil,
    reduceCtorEq]

/-- A change to the items that keeps their names in place leaves the index right. -/
theorem wellFormed_of_names_eq (s t : SymbolMap α) (h : s.WellFormed) (hindex : t.index = s.index)
    (hnames : t.names = s.names) : t.WellFormed := by
  intro name slot
  rw [hindex, hnames]
  exact h name slot

/-- A new item at the end, with the slot behind the last one for its name. -/
theorem wellFormed_push (s t : SymbolMap α) (h : s.WellFormed) (item : α)
    (hnew : symbolName item ∉ s.names)
    (hindex : t.index = s.index.insert (symbolName item) s.items.size)
    (hlist : t.toList = s.toList ++ [item]) : t.WellFormed := by
  have hsize : s.items.size = s.names.length := by
    rw [names, List.length_map, toList, Array.length_toList]
  have hnames : t.names = s.names ++ [symbolName item] := by
    rw [names, hlist, List.map_append, List.map_singleton, names]
  unfold WellFormed
  rw [hindex, hnames, hsize]
  exact IndexesSlots.push h (symbolName item) hnew

/-- A name without a slot gets a new one. -/
theorem upsert_of_not_mem (s : SymbolMap α) (h : s.WellFormed) (item : α)
    (hnew : symbolName item ∉ s.names) :
    (s.upsert item).WellFormed ∧ (s.upsert item).toList = s.toList ++ [item] := by
  have heq : s.upsert item =
      { items := s.items.push item
        index := s.index.insert (symbolName item) s.items.size } := by
    rw [upsert, (s.index_eq_none_iff h (symbolName item)).mpr hnew]
  have hlist : (s.upsert item).toList = s.toList ++ [item] := by
    rw [heq, toList, Array.toList_push, toList]
  exact ⟨s.wellFormed_push _ h item hnew (by rw [heq]) hlist, hlist⟩

/-- A change in the slot of a name, for the index and as a list. -/
theorem modify_spec [LawfulSymbol α] (s : SymbolMap α) (h : s.WellFormed)
    (policy : CollisionPolicy) (item : α) (slot : Nat)
    (hslot : s.index[symbolName item]? = some slot) (items : Array α)
    (hitems : items.toList = s.toList.modify slot (redeclare policy · item)) :
    ({ s with items } : SymbolMap α).WellFormed ∧
      ({ s with items } : SymbolMap α).toList = declare policy s.toList item := by
  have hname := (h (symbolName item) slot).mp hslot
  have hlist : ({ s with items } : SymbolMap α).toList = declare policy s.toList item := by
    rw [declare_of_mem policy s.toList item (List.mem_of_getElem? hname), toList, hitems]
    exact modify_eq_map_of_slot s.toList _ slot _ (s.nodup_names h) hname
  refine ⟨wellFormed_of_names_eq s _ h rfl ?_, hlist⟩
  rw [names, hlist, declare_of_mem policy s.toList item (List.mem_of_getElem? hname),
    map_symbolName_exchange, names]

/-- Putting an item in is declaring it over the one of its name. -/
theorem upsert_spec [LawfulSymbol α] (s : SymbolMap α) (h : s.WellFormed) (item : α) :
    (s.upsert item).WellFormed ∧ (s.upsert item).toList = declare .overwrite s.toList item := by
  rcases hslot : s.index[symbolName item]? with _ | slot
  · have hnew := (s.index_eq_none_iff h (symbolName item)).mp hslot
    rw [declare_of_not_mem _ s.toList item hnew]
    exact s.upsert_of_not_mem h item hnew
  · rw [upsert, hslot]
    refine s.modify_spec h .overwrite item slot hslot _ ?_
    rw [Array.toList_setIfInBounds, List.set_eq_modify]
    rfl

/-- A name without a slot is taken in under every policy. -/
theorem insert_of_not_mem (s : SymbolMap α) (h : s.WellFormed) (item : α)
    (policy : CollisionPolicy) (module : String) (header : Path)
    (hnew : symbolName item ∉ s.names) :
    s.insert item policy module header = (.ok (), s.upsert item) := by
  rw [insert, (s.index_eq_none_iff h (symbolName item)).mpr hnew]

/-- Taking an item in is declaring it, unless the policy rejects a second declaration. -/
theorem insert_spec [LawfulSymbol α] (s : SymbolMap α) (h : s.WellFormed) (item : α)
    (policy : CollisionPolicy) (module : String) (header : Path)
    (haccept : policy ≠ .reject ∨ symbolName item ∉ s.names) :
    ∃ t, s.insert item policy module header = (.ok (), t) ∧ t.WellFormed ∧
      t.toList = declare policy s.toList item := by
  -- The index decides whether the name is new, as the list of names would.
  rcases hslot : s.index[symbolName item]? with _ | slot
  · have hnew := (s.index_eq_none_iff h (symbolName item)).mp hslot
    refine ⟨s.upsert item, s.insert_of_not_mem h item policy module header hnew, ?_⟩
    rw [declare_of_not_mem _ s.toList item hnew]
    exact s.upsert_of_not_mem h item hnew
  · cases policy with
    | overwrite =>
        refine ⟨_, by rw [insert, hslot], s.modify_spec h .overwrite item slot hslot _ ?_⟩
        rw [Array.toList_setIfInBounds, List.set_eq_modify]
        rfl
    | merge =>
        refine ⟨_, by rw [insert, hslot], s.modify_spec h .merge item slot hslot _ ?_⟩
        rw [Array.toList_modify]
        rfl
    | reject =>
        rcases haccept with hpolicy | hnew
        · exact absurd rfl hpolicy
        · rw [(s.index_eq_none_iff h (symbolName item)).mpr hnew] at hslot
          exact absurd hslot (by simp only [reduceCtorEq, not_false_eq_true])

/-- A second declaration under the policy that rejects it. The error names the header the second
    one stands in. -/
theorem insert_reject (s : SymbolMap α) (h : s.WellFormed) (item : α) (module : String)
    (header : Path) (hold : symbolName item ∈ s.names) :
    s.insert item .reject module header =
      (.error (.duplicateSymbol module (NamedSymbol.kind α) (symbolName item) header), s) := by
  rcases hslot : s.index[symbolName item]? with _ | slot
  · exact absurd hold ((s.index_eq_none_iff h (symbolName item)).mp hslot)
  · rw [insert, hslot]

/-- Whatever is refused leaves no trace, whether or not the index is right. -/
theorem insert_snd_of_error (s : SymbolMap α) (item : α) (policy : CollisionPolicy)
    (module : String) (header : Path) (e : ModuleError)
    (h : (s.insert item policy module header).1 = .error e) :
    (s.insert item policy module header).2 = s := by
  unfold insert at h ⊢
  cases hslot : s.index[symbolName item]? with
  | none =>
      rw [hslot] at h
      cases h
  | some slot =>
      rw [hslot] at h
      cases policy with
      | overwrite => cases h
      | merge => cases h
      | reject => rfl

/-- Only a second declaration is ever refused, and only under the policy that rejects those. -/
theorem insert_eq_error_iff [LawfulSymbol α] (s : SymbolMap α) (h : s.WellFormed) (item : α)
    (policy : CollisionPolicy) (module : String) (header : Path) (e : ModuleError) :
    (s.insert item policy module header).1 = .error e ↔
      policy = .reject ∧ symbolName item ∈ s.names ∧
        e = .duplicateSymbol module (NamedSymbol.kind α) (symbolName item) header := by
  by_cases haccept : policy ≠ .reject ∨ symbolName item ∉ s.names
  · rcases s.insert_spec h item policy module header haccept with ⟨t, hok, _⟩
    rw [hok]
    refine iff_of_false (by simp only [reduceCtorEq, not_false_eq_true]) (fun hc => ?_)
    exact haccept.elim (fun hpolicy => hpolicy hc.1) (fun hnew => hnew hc.2.1)
  · rw [not_or, not_not, not_not] at haccept
    rcases haccept with ⟨rfl, hold⟩
    rw [s.insert_reject h item module header hold, Except.error.injEq, eq_comm]
    simp only [hold, true_and]

/-- A map is given up for what is refused. -/
theorem accept_eq_error_iff (s : SymbolMap α) (item : α) (policy : CollisionPolicy)
    (module : String) (header : Path) (e : ModuleError) :
    s.accept item policy module header = .error e ↔
      (s.insert item policy module header).1 = .error e := by
  unfold accept
  rcases s.insert item policy module header with ⟨_ | _, t⟩
  · simp only [Except.map, Except.error.injEq]
  · simp only [Except.map, reduceCtorEq]

end SymbolMap

end HeaderBinding
