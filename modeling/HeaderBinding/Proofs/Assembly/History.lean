import HeaderBinding.Proofs.Assembly.Aggregation

/-!
# Symbol Maps Through Their History

What can be relied on of a symbol map, whatever it has been offered.

A map starts from a list of items, or from nothing, and is offered declarations under any policies.
Some of the offers are refused, and a refusal leaves the map as it was. No matter in which order all
this happens, the map stays in step with itself, a name keeps the slot it was given first, and
nothing in the map tells how it came about. Rebuilding it from its items gives the same map.

One offer keeps the index right and the names in front where they are (`SymbolMap.offer_spec`), and
so does any number of them (`SymbolMap.offerAll_spec`). The rest is what a right index means.

All three kinds of declarations are covered by one argument. What it needs of a kind is that folding
a later record into an earlier one keeps the name.

## Main definitions

* `Offer`: A declaration that a map may take in.
* `SymbolMap.offer`, `SymbolMap.offerAll`: A map after one offer, or after several.
* `SymbolMap.Reliable`: What can be relied on of a map.
* `SymbolMap.AlwaysReliable`: Maps of one kind can be relied on, whatever they have been offered.

## Theorems

* `SymbolMap.offer_spec`: One offer keeps the index right and the slots in place.
* `SymbolMap.offerAll_spec`: So does any number of offers.
* `SymbolMap.WellFormed.reliable`: A map can be relied on if its index is right.
* `SymbolMap.alwaysReliable_of_lawful`: Maps of a kind whose records keep their names.
* `SymbolMap.alwaysReliable`: Maps of classes, of class templates and of typedefs.
-/

namespace HeaderBinding

/-- A declaration that a map may take in, with the policy for it and the place where it stands. -/
structure Offer (α : Type) where
  item : α
  policy : CollisionPolicy
  module : String
  header : Path

namespace SymbolMap

variable {α : Type} [NamedSymbol α]

/-- Offer a declaration to a map. -/
def offer (s : SymbolMap α) (o : Offer α) : Except ModuleError Unit × SymbolMap α :=
  s.insert o.item o.policy o.module o.header

/-- Offer declarations to a map one after the other, whether or not they are refused. -/
def offerAll (s : SymbolMap α) (offers : List (Offer α)) : SymbolMap α :=
  offers.foldl (fun s o => (s.offer o).2) s

/-- What can be relied on of a map. -/
structure Reliable (s : SymbolMap α) : Prop where
  nodup : s.names.Nodup
  /-- The index has the slot of each name and nothing besides. -/
  index : ∀ (name : String) (slot : Nat), s.index[name]? = some slot ↔ s.names[slot]? = some name
  /-- A look-up finds the item of a name. -/
  get? : ∀ (name : String) (item : α),
    s.get? name = some item ↔ item ∈ s.toList ∧ symbolName item = name
  contains : ∀ name : String, s.contains name = true ↔ ∃ item ∈ s.toList, symbolName item = name
  /-- Refused is a second declaration of a name under the policy that rejects those. -/
  refused : ∀ (o : Offer α) (e : ModuleError), (s.offer o).1 = .error e ↔
    o.policy = .reject ∧ symbolName o.item ∈ s.names ∧
      e = .duplicateSymbol o.module (NamedSymbol.kind α) (symbolName o.item) o.header
  /-- A refusal leaves the map as it was. -/
  unchanged : ∀ (o : Offer α) (e : ModuleError), (s.offer o).1 = .error e → (s.offer o).2 = s
  /-- Built anew from its items, the map has the same items and the same index. -/
  rebuilt : (ofList s.toList).items = s.items ∧ (ofList s.toList).index.Equiv s.index

variable (α) in
/-- Maps can be relied on, whatever they were made from and have been offered since, and a name
    keeps its slot whatever they are offered later. A map that starts out empty is made from the
    empty list. -/
def AlwaysReliable : Prop :=
  ∀ (start : List α) (offers more : List (Offer α)),
    ((ofList start).offerAll offers).Reliable ∧
    ∀ (name : String) (slot : Nat), ((ofList start).offerAll offers).index[name]? = some slot →
      ((ofList start).offerAll (offers ++ more)).index[name]? = some slot

section Lawful

variable [LawfulSymbol α] (s : SymbolMap α)

/-- An offer keeps the index right and every name in its slot. -/
theorem offer_spec (h : s.WellFormed) (o : Offer α) :
    (s.offer o).2.WellFormed ∧ s.names <+: (s.offer o).2.names := by
  by_cases haccept : o.policy ≠ .reject ∨ symbolName o.item ∉ s.names
  · rcases s.insert_spec h o.item o.policy o.module o.header haccept with ⟨t, hok, hwf, hlist⟩
    rw [offer, hok]
    refine ⟨hwf, ?_⟩
    rw [names, names, hlist]
    exact prefix_map_symbolName_declare o.policy s.toList o.item
  · -- A refusal changes nothing at all.
    rw [not_or, not_not, not_not] at haccept
    rw [offer, haccept.1, s.insert_reject h o.item o.module o.header haccept.2]
    exact ⟨h, List.prefix_refl _⟩

/-- So does any number of offers. -/
theorem offerAll_spec (h : s.WellFormed) (offers : List (Offer α)) :
    (s.offerAll offers).WellFormed ∧ s.names <+: (s.offerAll offers).names := by
  induction offers generalizing s with
  | nil => exact ⟨h, List.prefix_refl _⟩
  | cons o offers ih =>
      rcases s.offer_spec h o with ⟨hwf, hfirst⟩
      rcases ih (s.offer o).2 hwf with ⟨hlast, hrest⟩
      exact ⟨hlast, hfirst.trans hrest⟩

/-- A map can be relied on if its index is right. -/
theorem WellFormed.reliable (h : s.WellFormed) : s.Reliable := by
  have hlist := toList_ofList s.toList (s.nodup_names h)
  -- All but the last two clauses say what a right index means for one operation.
  refine ⟨s.nodup_names h, h, s.get?_eq_some_iff h, fun name => ?_, fun o e => ?_,
    fun o e he => s.insert_snd_of_error o.item o.policy o.module o.header e he, ?_, ?_⟩
  · rw [contains, Std.HashMap.contains_eq_isSome_getElem?, Option.isSome_iff_ne_none, ne_eq,
      s.index_eq_none_iff h, not_not, names, List.mem_map]
  · rw [offer, s.insert_eq_error_iff h]
  · exact Array.toList_inj.mp hlist
  · -- Both indexes have the slots of the same names.
    refine Std.HashMap.Equiv.of_forall_getElem?_eq (fun name => Option.ext fun slot => ?_)
    rw [(ofList_gathers s.toList).wellFormed name slot, h name slot, names, hlist, names]

/-- Maps of a kind whose records keep their names can be relied on. -/
theorem alwaysReliable_of_lawful : AlwaysReliable α := by
  intro start offers more
  rcases (ofList start).offerAll_spec (ofList_gathers start).wellFormed offers with ⟨hwf, _⟩
  refine ⟨WellFormed.reliable _ hwf, fun name slot hslot => ?_⟩
  rcases ((ofList start).offerAll offers).offerAll_spec hwf more with ⟨hlater, hprefix⟩
  rw [offerAll, List.foldl_append]
  -- The names that were there are the first of those that are there now.
  rcases List.getElem?_eq_some_iff.mp ((hwf name slot).mp hslot) with ⟨hbound, hname⟩
  exact (hlater name slot).mpr (hname ▸ List.prefix_iff_getElem?.mp hprefix slot hbound)

end Lawful

/-- Whatever maps of classes, of class templates and of typedefs are made from and offered, their
    names are distinct, their index and their look-ups agree with their items, and a refusal leaves
    them as they were. A name keeps the slot it was given first. -/
theorem alwaysReliable :
    AlwaysReliable ClassRecord ∧ AlwaysReliable ClassTemplate ∧ AlwaysReliable Typedef :=
  ⟨alwaysReliable_of_lawful, alwaysReliable_of_lawful, alwaysReliable_of_lawful⟩

end SymbolMap

end HeaderBinding
