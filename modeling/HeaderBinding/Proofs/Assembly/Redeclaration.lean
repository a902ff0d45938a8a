import HeaderBinding.Proofs.Assembly.Aggregation

/-!
# What Becomes of a Redeclaration

The tables of a module under the two policies that take redeclarations in.

Neither policy can fail, so there always is a table. Its names are told by where they are first
declared, and what stands for a name is told by the declarations of that name alone. Under one
policy it is the last of them, under the other all of them folded together from the first on.

The description looks at one kind of declaration at a time, all headers strung together. A class and
a template of one name stand in different lists there and do not know of each other.

## Main definitions

* `foldDeclarations`: Declarations folded into the first of them.
* `SymbolMap.Holds`: A map described by the declarations it was filled from.
* `SymbolTable.Holds`: The tables of a module, each by the declarations of its kind.

## Theorems

* `standing_overwrite`, `standing_merge`: What stands for a name.
* `SymbolMap.Gathers.get?_eq`: A look-up finds what stands for a name.
* `SymbolTable.ofHeaders_holds`: The tables of a module under both policies.
-/

namespace HeaderBinding

section Standing

variable {α : Type} [NamedSymbol α]

/-- Declarations of one name, each later one folded into what the earlier ones come to. -/
def foldDeclarations : List α → Option α
  | [] => none
  | first :: later => some (later.foldl mergeFrom first)

/-- A map has the declared names in the order of their first declaration, and for each of them the
    record that is made of its declarations. -/
structure SymbolMap.Holds (s : SymbolMap α) (declared : List α)
    (record : List α → Option α) : Prop where
  names : s.names = (declared.map symbolName).eraseDups
  toList : s.toList.map some =
    s.names.map fun name => record (declared.filter (symbolName · == name))
  get? : ∀ name, s.get? name = record (declared.filter (symbolName · == name))

/-- What is overwritten time and again is the last declaration in the end. -/
theorem standing_overwrite (items : List α) (name : String) :
    standing .overwrite items name = (items.filter (symbolName · == name)).getLast? := by
  unfold standing
  rcases items.filter (symbolName · == name) with _ | ⟨first, later⟩
  · rfl
  · induction later generalizing first with
    | nil => rfl
    | cons second later ih =>
        -- The first declaration is gone as soon as there is a second.
        rw [List.getLast?_cons_cons]
        exact ih second

theorem standing_merge (items : List α) (name : String) :
    standing .merge items name = foldDeclarations (items.filter (symbolName · == name)) := by
  unfold standing
  rcases items.filter (symbolName · == name) with _ | ⟨first, later⟩
  · rfl
  · rfl

variable [LawfulSymbol α] {policy : CollisionPolicy} {s : SymbolMap α} {items : List α}

/-- A look-up finds what stands for a name. -/
theorem SymbolMap.Gathers.get?_eq (h : s.Gathers policy items) (name : String) :
    s.get? name = standing policy items name := by
  refine Option.ext (fun item => ?_)
  rw [s.get?_eq_some_iff h.wellFormed, h.toList, aggregated, List.mem_filterMap]
  constructor
  · rintro ⟨⟨other, _, hstand⟩, hname⟩
    rw [symbolName_of_standing policy items other item hstand] at hname
    rw [← hname]
    exact hstand
  · intro hstand
    refine ⟨⟨name, ?_, hstand⟩, symbolName_of_standing policy items name item hstand⟩
    rw [List.mem_eraseDups]
    by_contra hnot
    rw [(standing_eq_none_iff policy items name).mpr hnot] at hstand
    exact absurd hstand (by simp only [reduceCtorEq, not_false_eq_true])

/-- A map that gathers declarations holds the records that its policy makes of them. -/
theorem SymbolMap.Gathers.holds (h : s.Gathers policy items) (record : List α → Option α)
    (hrecord : ∀ name, standing policy items name =
      record (items.filter (symbolName · == name))) : s.Holds items record := by
  have hget : ∀ name, s.get? name = record (items.filter (symbolName · == name)) := by
    intro name
    rw [h.get?_eq, hrecord]
  refine ⟨by rw [SymbolMap.names, h.toList, map_symbolName_aggregated], ?_, hget⟩
  rw [SymbolMap.names, List.map_map]
  refine List.map_congr_left (fun item hitem => ?_)
  rw [Function.comp_apply, ← hget, eq_comm, s.get?_eq_some_iff h.wellFormed]
  exact ⟨hitem, rfl⟩

end Standing

namespace SymbolTable

/-- The tables of a module hold the records that are made of its declarations, and what has no table
    is listed header by header. -/
structure Holds (table : SymbolTable) (headers : List Header)
    (record : {α : Type} → [NamedSymbol α] → List α → Option α) : Prop where
  classes : table.classes.Holds (headers.flatMap (·.classes)) record
  classTemplates : table.classTemplates.Holds (headers.flatMap (·.classTemplates)) record
  typedefs : table.typedefs.Holds (headers.flatMap (·.typedefs)) record
  enums : table.enums = headers.flatMap (·.enums)
  functions : table.functions = headers.flatMap (·.functions)
  operators : table.operators = headers.flatMap (·.operators)

variable (module : String) (headers : List Header) (policy : CollisionPolicy)

/-- Unless redeclarations are rejected there is a table. -/
theorem exists_gathers (hpolicy : policy ≠ .reject) :
    ∃ table, ofHeaders module headers policy = .ok table ∧ table.Gathers policy headers := by
  rcases ofHeaders_gathers module headers policy with hok | ⟨e, _, hreject, _⟩
  · exact hok
  · exact absurd hreject hpolicy

variable {policy headers} {table : SymbolTable}

theorem Gathers.holds (h : table.Gathers policy headers)
    (record : {α : Type} → [NamedSymbol α] → List α → Option α)
    (hrecord : ∀ {α : Type} [NamedSymbol α] (items : List α) (name : String),
      standing policy items name = record (items.filter (symbolName · == name))) :
    table.Holds headers record :=
  ⟨h.classes.holds record (hrecord _), h.classTemplates.holds record (hrecord _),
    h.typedefs.holds record (hrecord _), h.enums, h.functions, h.operators⟩

variable (headers)

/-- Where redeclarations are taken in there always is a table. It has every declared name once, in
    the order of first declaration, and of the declarations of a name the last one or all of them
    folded together. -/
theorem ofHeaders_holds :
    (∃ table, ofHeaders module headers .overwrite = .ok table ∧
      table.Holds headers List.getLast?) ∧
    ∃ table, ofHeaders module headers .merge = .ok table ∧
      table.Holds headers foldDeclarations := by
  constructor
  · rcases exists_gathers module headers .overwrite (by decide) with ⟨table, hok, h⟩
    exact ⟨table, hok, h.holds _ standing_overwrite⟩
  · rcases exists_gathers module headers .merge (by decide) with ⟨table, hok, h⟩
    exact ⟨table, hok, h.holds _ standing_merge⟩

end SymbolTable

end HeaderBinding
