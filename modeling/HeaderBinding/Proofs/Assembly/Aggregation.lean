import HeaderBinding.Assembly.SymbolTable
import HeaderBinding.Proofs.Assembly.SymbolMap

/-!
# What a Symbol Table Holds

The tables of a module, described without the order in which they were filled.

Headers are taken in one after the other and each table is changed declaration by declaration.
What comes of it can be said in one go: `aggregated` lists the distinct names in the order of their
first declaration, each with the record its declarations leave behind. The description only looks at
the declarations of one kind, all headers strung together, so it does not know where one header
ends, and the kinds cannot get in each other's way.

A fold that may stop early keeps one of two promises. Either it went through, and something holds of
everything taken in, or it stopped, and something is wrong with what it was given.
`foldlM_ok_or_error` is that argument, made once for the declarations of a header and once more for
the headers.

## Main definitions

* `standing`: The record that the declarations of one name leave behind.
* `aggregated`: The distinct names of a list of declarations, each with its standing record.
* `SymbolMap.Gathers`: A map holds what a list of declarations comes to.
* `DistinctDeclarations`: No name is declared twice by the headers.
* `SymbolTable.Gathers`: A table holds what a list of headers comes to.

## Theorems

* `aggregated_append_singleton`: One more declaration is declared over the rest.
* `aggregated_of_nodup`: Declarations of distinct names stand as they are.
* `SymbolMap.ofList_gathers`: What the map of a list holds.
* `foldlM_ok_or_error`: A fold that may stop goes through or finds a fault.
* `SymbolTable.ofHeaders_gathers`: Taking in the headers of a module.
-/

namespace HeaderBinding

section Aggregated

variable {α : Type} [NamedSymbol α]

/-- The record that the declarations of one name leave behind: the first one, with each later one
    made of it what the policy says. -/
def standing (policy : CollisionPolicy) (items : List α) (name : String) : Option α :=
  match items.filter (symbolName · == name) with
  | [] => none
  | first :: later => some (later.foldl (redeclare policy) first)

/-- The distinct names of a list of declarations in the order of their first mention, each with the
    record that its declarations leave behind. -/
def aggregated (policy : CollisionPolicy) (items : List α) : List α :=
  (items.map symbolName).eraseDups.filterMap (standing policy items)

/-- A name that nothing declares has no record. -/
theorem standing_eq_none_iff (policy : CollisionPolicy) (items : List α) (name : String) :
    standing policy items name = none ↔ name ∉ items.map symbolName := by
  have hfilter : items.filter (symbolName · == name) = [] ↔ name ∉ items.map symbolName := by
    simp only [List.filter_eq_nil_iff, beq_iff_eq, List.mem_map, not_exists, not_and]
  unfold standing
  rcases hdecl : items.filter (symbolName · == name) with _ | ⟨first, later⟩
  · exact iff_of_true rfl (hfilter.mp hdecl)
  · refine iff_of_false (by simp only [reduceCtorEq, not_false_eq_true]) (fun hc => ?_)
    rw [hfilter.mpr hc] at hdecl
    exact absurd hdecl (by simp only [reduceCtorEq, not_false_eq_true])

/-- A declaration of another name changes nothing. -/
theorem standing_append_of_ne (policy : CollisionPolicy) (items : List α) (item : α)
    (name : String) (h : symbolName item ≠ name) :
    standing policy (items ++ [item]) name = standing policy items name := by
  have hfilter : [item].filter (symbolName · == name) = [] := by
    rw [List.filter_eq_nil_iff]
    intro a ha
    rw [List.mem_singleton.mp ha, beq_iff_eq]
    exact h
  unfold standing
  rw [List.filter_append, hfilter, List.append_nil]

/-- A declaration of the name stands alone, or is made part of the record there is. -/
theorem standing_append_self (policy : CollisionPolicy) (items : List α) (item : α) :
    standing policy (items ++ [item]) (symbolName item) =
      some (((standing policy items (symbolName item)).map (redeclare policy · item)).getD
        item) := by
  have hfilter : [item].filter (symbolName · == symbolName item) = [item] := by
    rw [List.filter_eq_self]
    intro a ha
    rw [List.mem_singleton.mp ha, beq_self_eq_true]
  unfold standing
  rw [List.filter_append, hfilter]
  rcases items.filter (symbolName · == symbolName item) with _ | ⟨first, later⟩
  · rfl
  · rw [List.cons_append]
    simp only [List.foldl_append, List.foldl_cons, List.foldl_nil, Option.map_some,
      Option.getD_some]

/-- What stands for a name bears that name. -/
theorem symbolName_of_standing [LawfulSymbol α] (policy : CollisionPolicy) (items : List α)
    (name : String) (item : α) (h : standing policy items name = some item) :
    symbolName item = name := by
  induction items using List.reverseRecOn generalizing item with
  | nil => exact absurd h (by simp only [standing, List.filter_nil, reduceCtorEq,
      not_false_eq_true])
  | append_singleton items last ih =>
      by_cases hname : symbolName last = name
      · -- Folded into a record of the name, or the first of it.
        subst hname
        rw [standing_append_self, Option.some.injEq] at h
        rcases hstand : standing policy items (symbolName last) with _ | first
        · rw [← h, hstand]
          rfl
        · rw [← h, hstand, Option.map_some, Option.getD_some,
            symbolName_redeclare policy first last (ih first hstand).symm]
          exact ih first hstand
      · rw [standing_append_of_ne policy items last name hname] at h
        exact ih item h

theorem map_symbolName_aggregated [LawfulSymbol α] (policy : CollisionPolicy) (items : List α) :
    (aggregated policy items).map symbolName = (items.map symbolName).eraseDups := by
  rw [aggregated, List.map_filterMap]
  refine (List.filterMap_congr (fun name hname => ?_)).trans List.filterMap_some
  rw [List.mem_eraseDups] at hname
  rcases hstand : standing policy items name with _ | item
  · exact absurd hname ((standing_eq_none_iff policy items name).mp hstand)
  · rw [Option.map_some, symbolName_of_standing policy items name item hstand]

theorem eraseDups_append_singleton (names : List String) (name : String) :
    (names ++ [name]).eraseDups =
      if name ∈ names then names.eraseDups else names.eraseDups ++ [name] := by
  rw [List.eraseDups_append, List.cons_removeAll, List.nil_removeAll]
  by_cases h : name ∈ names
  · simp only [h, List.contains_eq_mem, decide_true, reduceCtorEq, if_true, if_false,
      List.eraseDups_nil, List.append_nil]
  · simp only [h, List.contains_eq_mem, decide_false, if_true, if_false,
      List.eraseDups_cons, List.filter_nil, List.eraseDups_nil]

/-- One more declaration changes what the earlier ones come to as `declare` says. -/
theorem aggregated_append_singleton [LawfulSymbol α] (policy : CollisionPolicy) (items : List α)
    (item : α) :
    aggregated policy (items ++ [item]) = declare policy (aggregated policy items) item := by
  have hmem : symbolName item ∈ (aggregated policy items).map symbolName ↔
      symbolName item ∈ items.map symbolName := by
    rw [map_symbolName_aggregated, List.mem_eraseDups]
  have hnames := eraseDups_append_singleton (items.map symbolName) (symbolName item)
  by_cases hold : symbolName item ∈ items.map symbolName
  · -- The names stay as they are, and the record of this one is exchanged in its place.
    rw [declare_of_mem policy _ item (hmem.mpr hold)]
    rw [if_pos hold] at hnames
    unfold aggregated
    rw [List.map_append, List.map_singleton, hnames, List.map_filterMap]
    refine List.filterMap_congr (fun name _ => ?_)
    by_cases hname : symbolName item = name
    · subst hname
      rw [standing_append_self]
      rcases hstand : standing policy items (symbolName item) with _ | first
      · exact absurd hold ((standing_eq_none_iff policy items _).mp hstand)
      · rw [Option.map_some, Option.map_some, Option.getD_some,
          if_pos (symbolName_of_standing policy items _ first hstand)]
    · rw [standing_append_of_ne policy items item name hname]
      rcases hstand : standing policy items name with _ | first
      · rfl
      · rw [Option.map_some, if_neg]
        rw [symbolName_of_standing policy items name first hstand]
        exact Ne.symm hname
  · -- A new name goes to the end, and no record before it changes.
    rw [declare_of_not_mem policy _ item (fun hc => hold (hmem.mp hc))]
    rw [if_neg hold] at hnames
    unfold aggregated
    rw [List.map_append, List.map_singleton, hnames, List.filterMap_append]
    congr 1
    · refine List.filterMap_congr (fun name hname => ?_)
      refine standing_append_of_ne policy items item name (fun hc => hold ?_)
      rw [hc]
      exact List.mem_eraseDups.mp hname
    · have hnone := (standing_eq_none_iff policy items (symbolName item)).mpr hold
      rw [List.filterMap_cons, standing_append_self, hnone]
      rfl

/-- Declarations of distinct names stand as they are, whatever the policy. -/
theorem aggregated_of_nodup [LawfulSymbol α] (policy : CollisionPolicy) (items : List α)
    (h : (items.map symbolName).Nodup) : aggregated policy items = items := by
  induction items using List.reverseRecOn with
  | nil => rfl
  | append_singleton items item ih =>
      rw [List.map_append, List.nodup_append] at h
      rw [aggregated_append_singleton, ih h.1, declare_of_not_mem]
      intro hmem
      exact h.2.2 _ hmem _ (List.mem_singleton.mpr rfl) rfl

end Aggregated

/-- A fold that may stop goes through, and then something holds of all it took in, or it stops over
    a fault of what it was given. A fault of a part is a fault of the whole. -/
theorem foldlM_ok_or_error {β σ ε : Type} (f : σ → β → Except ε σ) (holds : List β → σ → Prop)
    (fault : List β → Prop) (hfault : ∀ taken more, fault taken → fault (taken ++ more))
    (hstep : ∀ taken s x, holds taken s →
      (∃ t, f s x = .ok t ∧ holds (taken ++ [x]) t) ∨
        (∃ e, f s x = .error e ∧ fault (taken ++ [x]))) :
    ∀ (xs taken : List β) (s : σ), holds taken s →
      (∃ t, xs.foldlM f s = .ok t ∧ holds (taken ++ xs) t) ∨
        (∃ e, xs.foldlM f s = .error e ∧ fault (taken ++ xs)) := by
  -- Induction on what is still to be taken in, for whatever has been taken before.
  intro xs
  induction xs with
  | nil =>
      intro taken s hs
      exact Or.inl ⟨s, rfl, by rw [List.append_nil]; exact hs⟩
  | cons x xs ih =>
      intro taken s hs
      rw [List.append_cons, List.foldlM_cons]
      rcases hstep taken s x hs with ⟨t, hok, ht⟩ | ⟨e, herror, he⟩
      · rw [hok]
        exact ih (taken ++ [x]) t ht
      · rw [herror]
        exact Or.inr ⟨e, rfl, hfault _ xs he⟩

/-- A map holds what a list of declarations comes to. A policy that rejects a second declaration
    has met none. -/
structure SymbolMap.Gathers {α : Type} [NamedSymbol α] (policy : CollisionPolicy)
    (s : SymbolMap α) (items : List α) : Prop where
  wellFormed : s.WellFormed
  toList : s.toList = aggregated policy items
  nodup : policy = .reject → (items.map symbolName).Nodup

section Gathering

variable {α : Type} [NamedSymbol α] [LawfulSymbol α]

/-- A list of items is taken in as declarations of which a later one stands. -/
theorem SymbolMap.ofList_gathers (items : List α) : (ofList items).Gathers .overwrite items := by
  induction items using List.reverseRecOn with
  | nil => exact ⟨wellFormed_empty, rfl, fun _ => List.nodup_nil⟩
  | append_singleton items item ih =>
      have hstep : ofList (items ++ [item]) = (ofList items).upsert item := by
        rw [ofList, List.foldl_append, List.foldl_cons, List.foldl_nil, ofList]
      rcases (ofList items).upsert_spec ih.wellFormed item with ⟨hwf, hlist⟩
      rw [hstep]
      refine ⟨hwf, ?_, fun hc => absurd hc (by simp only [reduceCtorEq, not_false_eq_true])⟩
      rw [hlist, ih.toList, aggregated_append_singleton]

/-- Items of distinct names come out of a map as they went in. -/
theorem SymbolMap.toList_ofList (items : List α) (hnodup : (items.map symbolName).Nodup) :
    (ofList items).toList = items := by
  rw [(ofList_gathers items).toList, aggregated_of_nodup _ items hnodup]

/-- Taking in one more declaration, or refusing it for good reason. -/
theorem SymbolMap.accept_gathers (policy : CollisionPolicy) (s : SymbolMap α) (items : List α)
    (h : s.Gathers policy items) (item : α) (module : String) (header : Path) :
    (∃ t, s.accept item policy module header = .ok t ∧ t.Gathers policy (items ++ [item])) ∨
      (∃ e, s.accept item policy module header = .error e ∧
        policy = .reject ∧ ¬ ((items ++ [item]).map symbolName).Nodup) := by
  have hnames : s.names = (items.map symbolName).eraseDups := by
    rw [SymbolMap.names, h.toList, map_symbolName_aggregated]
  have hnodup : ((items ++ [item]).map symbolName).Nodup ↔
      (items.map symbolName).Nodup ∧ symbolName item ∉ items.map symbolName := by
    rw [List.map_append, List.map_singleton, ← List.concat_eq_append, List.nodup_concat, and_comm]
  by_cases haccept : policy ≠ .reject ∨ symbolName item ∉ s.names
  · left
    rcases s.insert_spec h.wellFormed item policy module header haccept with ⟨t, hok, hwf, hlist⟩
    refine ⟨t, by rw [SymbolMap.accept, hok]; rfl, hwf, ?_,
      fun hreject => hnodup.mpr ⟨h.nodup hreject, ?_⟩⟩
    · rw [hlist, h.toList, aggregated_append_singleton]
    · rcases haccept with hpolicy | hnew
      · exact absurd hreject hpolicy
      · rw [hnames, List.mem_eraseDups] at hnew
        exact hnew
  · right
    rw [not_or, not_not, not_not] at haccept
    rcases haccept with ⟨hreject, hold⟩
    have hrefused := s.insert_reject h.wellFormed item module header hold
    rw [hnames, List.mem_eraseDups] at hold
    exact ⟨_, by rw [hreject, SymbolMap.accept, hrefused]; rfl, hreject,
      fun hc => (hnodup.mp hc).2 hold⟩

/-- The same for all declarations of one kind in a header. -/
theorem SymbolTable.insertAll_gathers (policy : CollisionPolicy) (s : SymbolMap α)
    (items more : List α) (h : s.Gathers policy items) (module : String) (header : Path) :
    (∃ t, insertAll policy module header s more = .ok t ∧ t.Gathers policy (items ++ more)) ∨
      (∃ e, insertAll policy module header s more = .error e ∧
        policy = .reject ∧ ¬ ((items ++ more).map symbolName).Nodup) := by
  refine foldlM_ok_or_error _ (fun items s => s.Gathers policy items)
    (fun items => policy = .reject ∧ ¬ (items.map symbolName).Nodup) ?_ ?_ more items s h
  · intro taken more hfault
    refine ⟨hfault.1, fun hc => hfault.2 ?_⟩
    rw [List.map_append] at hc
    exact (List.nodup_append.mp hc).1
  · intro taken s item hs
    exact s.accept_gathers policy taken hs item module header

end Gathering

/-- The names of the classes, of the templates and of the typedefs that the headers declare are
    distinct, each kind by itself. -/
structure DistinctDeclarations (headers : List Header) : Prop where
  classes : ((headers.flatMap (·.classes)).map (·.name)).Nodup
  classTemplates : ((headers.flatMap (·.classTemplates)).map (·.name)).Nodup
  typedefs : ((headers.flatMap (·.typedefs)).map (·.name)).Nodup

/-- More headers cannot make up for a name declared twice. -/
theorem DistinctDeclarations.of_append (headers more : List Header)
    (h : DistinctDeclarations (headers ++ more)) : DistinctDeclarations headers := by
  rcases h with ⟨hclasses, htemplates, htypedefs⟩
  rw [List.flatMap_append, List.map_append] at hclasses htemplates htypedefs
  exact ⟨(List.nodup_append.mp hclasses).1, (List.nodup_append.mp htemplates).1,
    (List.nodup_append.mp htypedefs).1⟩

namespace SymbolTable

/-- A table holds what a list of headers comes to. -/
structure Gathers (policy : CollisionPolicy) (table : SymbolTable) (headers : List Header) :
    Prop where
  classes : table.classes.Gathers policy (headers.flatMap (·.classes))
  classTemplates : table.classTemplates.Gathers policy (headers.flatMap (·.classTemplates))
  typedefs : table.typedefs.Gathers policy (headers.flatMap (·.typedefs))
  enums : table.enums = headers.flatMap (·.enums)
  functions : table.functions = headers.flatMap (·.functions)
  operators : table.operators = headers.flatMap (·.operators)

/-- Taking in one more header. The kinds are taken in one after the other, and the first that is
    refused stops the header. -/
theorem addHeader_gathers (policy : CollisionPolicy) (module : String) (headers : List Header)
    (table : SymbolTable) (header : Header) (h : table.Gathers policy headers) :
    (∃ t, addHeader policy module table header = .ok t ∧ t.Gathers policy (headers ++ [header])) ∨
      (∃ e, addHeader policy module table header = .error e ∧
        policy = .reject ∧ ¬ DistinctDeclarations (headers ++ [header])) := by
  have happend : ∀ {β : Type} (f : Header → List β),
      (headers ++ [header]).flatMap f = headers.flatMap f ++ f header := by
    intro β f
    rw [List.flatMap_append, List.flatMap_singleton]
  rcases insertAll_gathers policy table.classes _ header.classes h.classes module header.path with
    ⟨classes, hok, hclasses⟩ | ⟨e, herror, hreject, hdup⟩
  · rcases insertAll_gathers policy table.classTemplates _ header.classTemplates h.classTemplates
      module header.path with ⟨templates, hok', htemplates⟩ | ⟨e, herror, hreject, hdup⟩
    · rcases insertAll_gathers policy table.typedefs _ header.typedefs h.typedefs
        module header.path with ⟨typedefs, hok'', htypedefs⟩ | ⟨e, herror, hreject, hdup⟩
      · left
        refine ⟨_, by rw [addHeader, hok, hok', hok'']; rfl, ?_, ?_, ?_, ?_, ?_, ?_⟩
        · rw [happend]
          exact hclasses
        · rw [happend]
          exact htemplates
        · rw [happend]
          exact htypedefs
        · rw [happend, h.enums]
        · rw [happend, h.functions]
        · rw [happend, h.operators]
      · refine Or.inr ⟨e, by rw [addHeader, hok, hok', herror]; rfl, hreject, fun hc => hdup ?_⟩
        rw [← happend]
        exact hc.typedefs
    · refine Or.inr ⟨e, by rw [addHeader, hok, herror]; rfl, hreject, fun hc => hdup ?_⟩
      rw [← happend]
      exact hc.classTemplates
  · refine Or.inr ⟨e, by rw [addHeader, herror]; rfl, hreject, fun hc => hdup ?_⟩
    rw [← happend]
    exact hc.classes

/-- Nothing comes to an empty table. -/
theorem gathers_nil (policy : CollisionPolicy) : ({} : SymbolTable).Gathers policy [] :=
  ⟨⟨SymbolMap.wellFormed_empty, rfl, fun _ => List.nodup_nil⟩,
    ⟨SymbolMap.wellFormed_empty, rfl, fun _ => List.nodup_nil⟩,
    ⟨SymbolMap.wellFormed_empty, rfl, fun _ => List.nodup_nil⟩, rfl, rfl, rfl⟩

/-- Taking in the headers of a module gives a table that holds what they come to. It can only fail
    over a name that is declared twice, and only under the policy that rejects those. -/
theorem ofHeaders_gathers (module : String) (headers : List Header) (policy : CollisionPolicy) :
    (∃ table, ofHeaders module headers policy = .ok table ∧ table.Gathers policy headers) ∨
      (∃ e, ofHeaders module headers policy = .error e ∧
        policy = .reject ∧ ¬ DistinctDeclarations headers) := by
  refine foldlM_ok_or_error _ (fun headers (table : SymbolTable) => table.Gathers policy headers)
    (fun headers => policy = .reject ∧ ¬ DistinctDeclarations headers) ?_ ?_ headers [] {}
    (gathers_nil policy)
  · intro taken more hfault
    exact ⟨hfault.1, fun hc => hfault.2 (hc.of_append taken more)⟩
  · intro taken table header h
    exact addHeader_gathers policy module taken table header h

/-- A table is filled only if no name is declared twice, or if that is allowed. -/
theorem Gathers.distinct (policy : CollisionPolicy) (table : SymbolTable) (headers : List Header)
    (h : table.Gathers policy headers) : policy ≠ .reject ∨ DistinctDeclarations headers := by
  by_cases hpolicy : policy = .reject
  · exact Or.inr ⟨h.classes.nodup hpolicy, h.classTemplates.nodup hpolicy,
      h.typedefs.nodup hpolicy⟩
  · exact Or.inl hpolicy

end SymbolTable

end HeaderBinding
