import HeaderBinding.Proofs.Assembly.Aggregation

/-!
# Rejecting Redeclarations

The tables of a module under the policy that rejects redeclarations.

There is a table if nothing is declared twice, and then it holds the declarations as they stand.
Otherwise something is reported, and what that is depends on the order in which the declarations are
taken in. The tables of the three kinds are filled header by header, so the order runs through all
of them, and `declarations` strings it together. What is reported is the first declaration in it
that repeats an earlier one of its kind (`IsFirstRepeat`), with the header in which it stands.

A fold that stops has gone through up to some item and stopped there (`foldlM_eq_error`). Used for
the headers and once more for the declarations of one kind, that leads to a declaration which the
table of its kind refuses, and all that has been taken in before it is known to be free of
repetitions.

## Main definitions

* `Declaration`: A declaration as it is reported.
* `declarations`: The declarations of headers in the order in which they are taken in.
* `IsFirstRepeat`: A declaration that repeats an earlier one, and the first to do so.
* `SymbolTable.Concatenates`: A table holds the declarations of its headers as they stand.

## Theorems

* `nodup_symbols_iff`: Kinds do not get in each other's way.
* `nodup_declarations_iff`: Declarations are distinct if no name is declared twice of one kind.
* `IsFirstRepeat.unique`: There is no more than one, as repetitions before it are excluded.
* `foldlM_eq_error`: Where a fold stops.
* `SymbolTable.insertAll_reject`: Which declaration of one kind is refused.
* `SymbolTable.addHeader_reject`, `SymbolTable.ofHeaders_eq_error`: Which declaration of all is.
* `SymbolTable.ofHeaders_reject`: The tables of a module under this policy.
-/

namespace HeaderBinding

/-- A declaration as it is reported: what it declares, and the header in which it stands. -/
structure Declaration where
  kind : SymbolKind
  name : String
  header : Path
deriving DecidableEq, Repr

/-- What a declaration declares. -/
def Declaration.symbol (d : Declaration) : SymbolKind × String :=
  (d.kind, d.name)

/-- The error over a declaration that is refused. -/
def Declaration.refusal (module : String) (d : Declaration) : ModuleError :=
  .duplicateSymbol module d.kind d.name d.header

/-- The declarations of one kind in a header. -/
def declarationsOf {α : Type} [NamedSymbol α] (header : Path) (items : List α) :
    List Declaration :=
  items.map fun item => { kind := NamedSymbol.kind α, name := symbolName item, header }

/-- The declarations of headers in the order in which they are taken in, header by header, and in a
    header the classes before the templates before the typedefs. -/
def declarations (headers : List Header) : List Declaration :=
  headers.flatMap fun header => declarationsOf header.path header.classes ++
    declarationsOf header.path header.classTemplates ++ declarationsOf header.path header.typedefs

/-- A declaration repeats an earlier one of its kind, and none before it does. -/
def IsFirstRepeat (ds : List Declaration) (d : Declaration) : Prop :=
  ∃ before after, ds = before ++ d :: after ∧ (before.map (·.symbol)).Nodup ∧
    d.symbol ∈ before.map (·.symbol)

/-- The names that are declared of one kind. -/
def namesOf (kind : SymbolKind) (ds : List Declaration) : List String :=
  (ds.filter (·.kind = kind)).map (·.name)

/-- The names that a header declares of one kind. -/
def Header.namesOf (header : Header) : SymbolKind → List String
  | .classType => header.classes.map (·.name)
  | .classTemplate => header.classTemplates.map (·.name)
  | .typedef => header.typedefs.map (·.name)

section Declarations

theorem namesOf_append (kind : SymbolKind) (ds more : List Declaration) :
    namesOf kind (ds ++ more) = namesOf kind ds ++ namesOf kind more := by
  rw [namesOf, List.filter_append, List.map_append, namesOf, namesOf]

theorem mem_namesOf (d : Declaration) (ds : List Declaration) :
    d.name ∈ namesOf d.kind ds ↔ d.symbol ∈ ds.map (·.symbol) := by
  simp only [namesOf, List.mem_map, List.mem_filter, decide_eq_true_eq, Declaration.symbol,
    Prod.mk.injEq, and_assoc]

/-- Kinds do not get in each other's way. -/
theorem nodup_symbols_iff (ds : List Declaration) :
    (ds.map (·.symbol)).Nodup ↔ ∀ kind, (namesOf kind ds).Nodup := by
  induction ds with
  | nil => exact iff_of_true List.nodup_nil fun _ => List.nodup_nil
  | cons d ds ih =>
      -- One more declaration adds its name to the names of its own kind and to no others.
      have hcons : ∀ kind, namesOf kind (d :: ds) =
          if d.kind = kind then d.name :: namesOf kind ds else namesOf kind ds := by
        intro kind
        by_cases h : d.kind = kind
        · simp only [namesOf, List.filter_cons, h, decide_true, if_true, List.map_cons]
        · simp only [namesOf, List.filter_cons, h, decide_false, if_false, Bool.false_eq_true]
      rw [List.map_cons, List.nodup_cons, ih, ← mem_namesOf]
      constructor
      · rintro ⟨hnew, hrest⟩ kind
        rw [hcons]
        split
        · next h =>
            subst h
            exact List.nodup_cons.mpr ⟨hnew, hrest _⟩
        · exact hrest kind
      · intro h
        refine ⟨?_, fun kind => ?_⟩
        · have hkind := h d.kind
          rw [hcons, if_pos rfl, List.nodup_cons] at hkind
          exact hkind.1
        · have hkind := h kind
          rw [hcons] at hkind
          split at hkind
          · exact (List.nodup_cons.mp hkind).2
          · exact hkind

theorem namesOf_declarationsOf {α : Type} [NamedSymbol α] (kind : SymbolKind) (header : Path)
    (items : List α) :
    namesOf kind (declarationsOf header items) =
      if NamedSymbol.kind α = kind then items.map symbolName else [] := by
  by_cases h : NamedSymbol.kind α = kind
  · simp only [namesOf, declarationsOf, List.filter_map, List.map_map, Function.comp_def, h,
      decide_true, List.filter_true, if_true]
  · simp only [namesOf, declarationsOf, List.filter_map, Function.comp_def, h, decide_false,
      List.filter_false, if_false, List.map_nil]

/-- Declarations of another kind declare no names of this one. -/
theorem namesOf_append_of_ne {α : Type} [NamedSymbol α] (kind : SymbolKind)
    (ds : List Declaration) (header : Path) (items : List α) (h : NamedSymbol.kind α ≠ kind) :
    namesOf kind (ds ++ declarationsOf header items) = namesOf kind ds := by
  rw [namesOf_append, namesOf_declarationsOf, if_neg h, List.append_nil]

/-- The names of a kind that headers declare, one header after the other. -/
theorem namesOf_declarations (kind : SymbolKind) (headers : List Header) :
    namesOf kind (declarations headers) = headers.flatMap (·.namesOf kind) := by
  rw [namesOf, declarations, List.filter_flatMap, List.map_flatMap]
  refine congrArg (headers.flatMap ·) (funext fun header => ?_)
  change namesOf kind _ = _
  rw [namesOf_append, namesOf_append, namesOf_declarationsOf, namesOf_declarationsOf,
    namesOf_declarationsOf]
  cases kind with
  | classType => simp [NamedSymbol.kind, Header.namesOf, symbolName]
  | classTemplate => simp [NamedSymbol.kind, Header.namesOf, symbolName]
  | typedef => simp [NamedSymbol.kind, Header.namesOf, symbolName]

/-- Declarations are distinct if no name is declared twice of one kind. -/
theorem nodup_declarations_iff (headers : List Header) :
    ((declarations headers).map (·.symbol)).Nodup ↔ DistinctDeclarations headers := by
  rw [nodup_symbols_iff]
  simp only [namesOf_declarations]
  constructor
  · intro h
    refine ⟨?_, ?_, ?_⟩
    · rw [List.map_flatMap]
      exact h .classType
    · rw [List.map_flatMap]
      exact h .classTemplate
    · rw [List.map_flatMap]
      exact h .typedef
  · rintro ⟨hclasses, htemplates, htypedefs⟩ kind
    rw [List.map_flatMap] at hclasses htemplates htypedefs
    cases kind with
    | classType => exact hclasses
    | classTemplate => exact htemplates
    | typedef => exact htypedefs

end Declarations

namespace IsFirstRepeat

variable {ds : List Declaration} {d d' : Declaration}

theorem append (h : IsFirstRepeat ds d) (more : List Declaration) :
    IsFirstRepeat (ds ++ more) d := by
  rcases h with ⟨before, after, rfl, hnodup, hold⟩
  exact ⟨before, after ++ more, by rw [List.append_assoc, List.cons_append], hnodup, hold⟩

theorem not_nodup (h : IsFirstRepeat ds d) : ¬ (ds.map (·.symbol)).Nodup := by
  rcases h with ⟨before, after, rfl, _, hold⟩
  rw [List.map_append, List.map_cons, List.nodup_append]
  exact fun hc => hc.2.2 _ hold _ (List.mem_cons_self ..) rfl

/-- Of two repetitions the later one has the earlier among the declarations before it. -/
theorem eq_of_append (before between after after' : List Declaration)
    (hnodup : ((before ++ between).map (·.symbol)).Nodup)
    (hold : d.symbol ∈ before.map (·.symbol)) (h : d :: after = between ++ d' :: after') :
    d = d' := by
  cases between with
  | nil => exact (List.cons.inj h).1
  | cons first between =>
      rw [← (List.cons.inj h).1, List.map_append, List.nodup_append] at hnodup
      exact absurd rfl (hnodup.2.2 _ hold _ (List.mem_cons_self ..))

theorem unique (h : IsFirstRepeat ds d) (h' : IsFirstRepeat ds d') : d = d' := by
  rcases h with ⟨before, after, rfl, hnodup, hold⟩
  rcases h' with ⟨before', after', heq, hnodup', hold'⟩
  -- Either of the two may be the one that stands further back.
  rcases List.append_eq_append_iff.mp heq with ⟨between, rfl, hrest⟩ | ⟨between, rfl, hrest⟩
  · exact eq_of_append before between after after' hnodup' hold hrest
  · exact (eq_of_append before' between after' after hnodup hold' hrest).symm

end IsFirstRepeat

/-- A fold that stops has gone through up to some item and stopped there. -/
theorem foldlM_eq_error {β σ ε : Type} (f : σ → β → Except ε σ) (xs : List β) (s : σ) (e : ε)
    (h : xs.foldlM f s = .error e) :
    ∃ before x after t, xs = before ++ x :: after ∧ before.foldlM f s = .ok t ∧
      f t x = .error e := by
  induction xs generalizing s with
  | nil => cases h
  | cons x xs ih =>
      rw [List.foldlM_cons] at h
      cases hx : f s x with
      | error e' =>
          rw [hx] at h
          exact ⟨[], x, xs, s, rfl, rfl, hx.trans h⟩
      | ok t =>
          rw [hx] at h
          rcases ih t h with ⟨before, y, after, u, rfl, hok, hy⟩
          refine ⟨x :: before, y, after, u, rfl, ?_, hy⟩
          rw [List.foldlM_cons, hx]
          exact hok

namespace SymbolTable

section OneKind

variable {α : Type} [NamedSymbol α] {prior : List Declaration} {taken : List α}

/-- Declarations stay distinct with more of one kind if the names of this kind do. -/
theorem nodup_append_declarationsOf (hprior : (prior.map (·.symbol)).Nodup)
    (hnames : namesOf (NamedSymbol.kind α) prior = taken.map symbolName) (header : Path)
    (items : List α) (h : ((taken ++ items).map symbolName).Nodup) :
    ((prior ++ declarationsOf header items).map (·.symbol)).Nodup := by
  rw [nodup_symbols_iff] at hprior ⊢
  intro kind
  rw [namesOf_append, namesOf_declarationsOf]
  split
  · next hkind =>
      rw [← hkind, hnames, ← List.map_append]
      exact h
  · rw [List.append_nil]
    exact hprior kind

variable [LawfulSymbol α]

/-- The declarations of one kind in a header are all taken in and are distinct, also from everything
    before them, or the first that repeats something is refused. -/
theorem insertAll_reject (s : SymbolMap α) (h : s.Gathers .reject taken)
    (hprior : (prior.map (·.symbol)).Nodup)
    (hnames : namesOf (NamedSymbol.kind α) prior = taken.map symbolName) (module : String)
    (header : Path) (items : List α) :
    (∃ t, insertAll .reject module header s items = .ok t ∧
      ((prior ++ declarationsOf header items).map (·.symbol)).Nodup) ∨
    ∃ d, insertAll .reject module header s items = .error (d.refusal module) ∧
      IsFirstRepeat (prior ++ declarationsOf header items) d := by
  have hgathers := fun more => insertAll_gathers .reject s taken more h module header
  rcases hgathers items with ⟨t, hok, ht⟩ | ⟨e, herror, _⟩
  · exact Or.inl ⟨t, hok, nodup_append_declarationsOf hprior hnames header items (ht.nodup rfl)⟩
  · right
    rcases foldlM_eq_error _ items s e herror with ⟨before, item, after, t, hitems, hok, hstop⟩
    -- What was taken in before the refusal is known to be distinct.
    have ht : t.Gathers .reject (taken ++ before) := by
      rcases hgathers before with ⟨t', hok', ht'⟩ | ⟨_, herror', _⟩
      · rw [insertAll, hok, Except.ok.injEq] at hok'
        rw [hok']
        exact ht'
      · rw [insertAll, hok] at herror'
        cases herror'
    rw [t.accept_eq_error_iff, t.insert_eq_error_iff ht.wellFormed] at hstop
    rcases hstop with ⟨_, hold, rfl⟩
    rw [SymbolMap.names, ht.toList, map_symbolName_aggregated, List.mem_eraseDups,
      List.map_append, ← hnames] at hold
    refine ⟨⟨NamedSymbol.kind α, symbolName item, header⟩, herror,
      prior ++ declarationsOf header before, declarationsOf header after, ?_,
      nodup_append_declarationsOf hprior hnames header before (ht.nodup rfl), ?_⟩
    · rw [hitems, declarationsOf, List.map_append, List.map_cons, List.append_assoc]
      rfl
    · rw [← mem_namesOf, namesOf_append, namesOf_declarationsOf, if_pos rfl]
      exact hold

end OneKind

/-- A header is taken in or stops at the first declaration that repeats something. -/
theorem addHeader_reject (module : String) (headers : List Header) (table : SymbolTable)
    (h : table.Gathers .reject headers) (header : Header) (e : ModuleError)
    (herror : addHeader .reject module table header = .error e) :
    ∃ d, e = d.refusal module ∧ IsFirstRepeat (declarations (headers ++ [header])) d := by
  have hprior := (nodup_declarations_iff headers).mpr (h.distinct.resolve_left (by decide))
  have hall : declarations (headers ++ [header]) = declarations headers ++
      declarationsOf header.path header.classes ++
      declarationsOf header.path header.classTemplates ++
      declarationsOf header.path header.typedefs := by
    simp only [declarations, List.flatMap_append, List.flatMap_singleton, List.append_assoc]
  -- What has been taken in of a kind is not touched by the kinds before it in the header.
  have hclasses : namesOf .classType (declarations headers) =
      (headers.flatMap (·.classes)).map symbolName := by
    rw [List.map_flatMap]
    exact namesOf_declarations .classType headers
  have htemplates : namesOf .classTemplate
      (declarations headers ++ declarationsOf header.path header.classes) =
        (headers.flatMap (·.classTemplates)).map symbolName := by
    rw [namesOf_append_of_ne _ _ _ _ (by decide), List.map_flatMap]
    exact namesOf_declarations .classTemplate headers
  have htypedefs : namesOf .typedef
      (declarations headers ++ declarationsOf header.path header.classes ++
        declarationsOf header.path header.classTemplates) =
        (headers.flatMap (·.typedefs)).map symbolName := by
    rw [namesOf_append_of_ne _ _ _ _ (by decide), namesOf_append_of_ne _ _ _ _ (by decide),
      List.map_flatMap]
    exact namesOf_declarations .typedef headers
  rw [hall]
  rcases insertAll_reject table.classes h.classes hprior hclasses module header.path
    header.classes with ⟨classes, hok, hprior⟩ | ⟨d, hstop, hd⟩
  · rcases insertAll_reject table.classTemplates h.classTemplates hprior htemplates module
      header.path header.classTemplates with ⟨templates, hok', hprior⟩ | ⟨d, hstop, hd⟩
    · rcases insertAll_reject table.typedefs h.typedefs hprior htypedefs module header.path
        header.typedefs with ⟨typedefs, hok'', _⟩ | ⟨d, hstop, hd⟩
      · rw [addHeader, hok, hok', hok''] at herror
        cases herror
      · rw [addHeader, hok, hok', hstop] at herror
        exact ⟨d, (Except.error.inj herror).symm, hd⟩
    · rw [addHeader, hok, hstop] at herror
      exact ⟨d, (Except.error.inj herror).symm, hd.append _⟩
  · rw [addHeader, hstop] at herror
    exact ⟨d, (Except.error.inj herror).symm, (hd.append _).append _⟩

/-- A table that is filled under this policy holds what its headers come to. -/
theorem gathers_of_ofHeaders_eq_ok (module : String) (headers : List Header) (table : SymbolTable)
    (hok : ofHeaders module headers .reject = .ok table) : table.Gathers .reject headers := by
  rcases ofHeaders_gathers module headers .reject with ⟨t, ht, hgathers⟩ | ⟨e, herror, _⟩
  · rw [hok, Except.ok.injEq] at ht
    rw [ht]
    exact hgathers
  · rw [hok] at herror
    cases herror

/-- What stops the headers is the first declaration of all that repeats something. -/
theorem ofHeaders_eq_error (module : String) (headers : List Header) (e : ModuleError)
    (herror : ofHeaders module headers .reject = .error e) :
    ∃ d, e = d.refusal module ∧ IsFirstRepeat (declarations headers) d := by
  rcases foldlM_eq_error (addHeader .reject module) headers {} e herror with
    ⟨before, header, after, t, rfl, hok, hstop⟩
  -- The headers before it made a table, so nothing is repeated among those.
  have hgathers := gathers_of_ofHeaders_eq_ok module before t hok
  rcases addHeader_reject module before t hgathers header e hstop with ⟨d, rfl, hd⟩
  refine ⟨d, rfl, ?_⟩
  rw [List.append_cons, declarations, List.flatMap_append]
  exact hd.append _

/-- The declarations of the headers, one after the other and as they stand. -/
structure Concatenates (table : SymbolTable) (headers : List Header) : Prop where
  classes : table.classes.toList = headers.flatMap (·.classes)
  classTemplates : table.classTemplates.toList = headers.flatMap (·.classTemplates)
  typedefs : table.typedefs.toList = headers.flatMap (·.typedefs)
  enums : table.enums = headers.flatMap (·.enums)
  functions : table.functions = headers.flatMap (·.functions)
  operators : table.operators = headers.flatMap (·.operators)

/-- Nothing is declared over anything else where nothing is declared twice. -/
theorem Gathers.concatenates {policy : CollisionPolicy} {table : SymbolTable}
    {headers : List Header} (h : table.Gathers policy headers)
    (hdistinct : DistinctDeclarations headers) : table.Concatenates headers := by
  refine ⟨?_, ?_, ?_, h.enums, h.functions, h.operators⟩
  · rw [h.classes.toList, aggregated_of_nodup _ _ hdistinct.classes]
  · rw [h.classTemplates.toList, aggregated_of_nodup _ _ hdistinct.classTemplates]
  · rw [h.typedefs.toList, aggregated_of_nodup _ _ hdistinct.typedefs]

/-- Where redeclarations are rejected there is a table if and only if no name is declared twice of
    one kind, and it holds the declarations of the headers as they stand. Otherwise the error is
    over the first declaration that repeats an earlier one, with the header that repeats it. -/
theorem ofHeaders_reject (module : String) (headers : List Header) :
    ((∃ table, ofHeaders module headers .reject = .ok table) ↔ DistinctDeclarations headers) ∧
    (∀ table, ofHeaders module headers .reject = .ok table → table.Concatenates headers) ∧
    ∀ e, ofHeaders module headers .reject = .error e ↔
      ∃ d, IsFirstRepeat (declarations headers) d ∧ e = d.refusal module := by
  rcases hresult : ofHeaders module headers .reject with e | table
  · rcases ofHeaders_eq_error module headers e hresult with ⟨d, rfl, hd⟩
    have hrepeated : ¬ DistinctDeclarations headers := by
      rw [← nodup_declarations_iff]
      exact hd.not_nodup
    refine ⟨iff_of_false ?_ hrepeated, ?_, fun e => ?_⟩
    · rintro ⟨_, htable⟩
      cases htable
    · intro _ htable
      cases htable
    · constructor
      · intro he
        exact ⟨d, hd, (Except.error.inj he).symm⟩
      · -- No other declaration comes into question.
        rintro ⟨d', hd', rfl⟩
        rw [hd.unique hd']
  · have hgathers := gathers_of_ofHeaders_eq_ok module headers table hresult
    have hdistinct := hgathers.distinct.resolve_left (by decide)
    refine ⟨iff_of_true ⟨table, rfl⟩ hdistinct, fun t ht => ?_, fun e => ?_⟩
    · rw [← Except.ok.inj ht]
      exact hgathers.concatenates hdistinct
    · constructor
      · intro he
        cases he
      · rintro ⟨d, hd, _⟩
        exact absurd ((nodup_declarations_iff headers).mpr hdistinct) hd.not_nodup

/-- Names that are repeated within a header, across headers and only across kinds. -/
def interleavedHeaders : List Header :=
  [{ path := "a.hxx"
     classes := [{ name := "A" }, { name := "B" }]
     classTemplates := [{ record := { name := "A" } }]
     typedefs := [{ name := "T", underlying := "int" }] },
   { path := "b.hxx"
     classes := [{ name := "C" }]
     classTemplates := [{ record := { name := "B" } }, { record := { name := "B" } }]
     typedefs := [{ name := "T", underlying := "int" }] },
   { path := "c.hxx", classes := [{ name := "A" }] }]

theorem ofHeaders_reject_interleaved :
    ofHeaders "geom" interleavedHeaders .reject =
      .error (.duplicateSymbol "geom" .classTemplate "B" "b.hxx") ∧
    ∃ table, ofHeaders "geom" (interleavedHeaders.take 1) .reject = .ok table ∧
      table.Concatenates (interleavedHeaders.take 1) := by
  have hall := ofHeaders_reject "geom" interleavedHeaders
  have hfirst := ofHeaders_reject "geom" (interleavedHeaders.take 1)
  constructor
  · -- The typedef is repeated in the same header, but behind the templates.
    refine (hall.2.2 _).mpr ⟨⟨.classTemplate, "B", "b.hxx"⟩, ?_, rfl⟩
    exact ⟨(declarations interleavedHeaders).take 6, (declarations interleavedHeaders).drop 7,
      rfl, by decide, by decide⟩
  · rcases hfirst.1.mpr ⟨by decide, by decide, by decide⟩ with ⟨table, hok⟩
    exact ⟨table, hok, hfirst.2.1 table hok⟩

end SymbolTable

end HeaderBinding
