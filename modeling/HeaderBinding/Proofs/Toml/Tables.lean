import HeaderBinding.Toml.Document
import Mathlib.Data.List.Basic

/-!
# Tables from Their Statements

The statements that write a table out define that table: its own keys behind its header, and then
the tables in it, each in the same way. The header may be left out where the tables inside imply it.

While statements are followed, the table that is being filled stands somewhere inside of others.
What matters of these is only that the path leads to it and that a new table can be put in its place
(`Reaches`). A path may lead to a table that is not there yet, which is then taken to be empty.

Tables are filled in the order in which they are listed. A name that is new is put behind the names
that are there, so the entries of the table come out in the order of their statements.

## Main definitions

* `Reaches`: The table that a path leads to, and what changing it does.
* `Runs`: What following some statements comes to.
* `Fills`, `FillsAll`: Statements that define a table, and several of them.

## Theorems

* `Entries.alter_new`, `Entries.alter_last`: Names that are new, and the name that came last.
* `Reaches.implied`, `Reaches.child`: Paths that are one name longer.
* `Runs.header`, `Runs.assignments`: A header, and keys with their values.
* `Fills.of_header`, `Fills.of_tables`: A table with a header, and one without.
* `ofStatements?_of_fillsAll`: The table of a whole document.
-/

namespace HeaderBinding

namespace Toml

namespace Entries

/-- The names of a table. -/
def names (entries : Entries) : List String :=
  entries.map (·.1)

/-- Keys with their values, as a table. -/
def values (own : List (String × Toml)) : Entries :=
  own.map fun entry => (entry.1, .value entry.2)

theorem names_values (own : List (String × Toml)) : (values own).names = own.map (·.1) := by
  rw [names, values, List.map_map]
  rfl

variable {name : String} {entries : Entries}

/-- The first of several new names is new, and the others are still new once it is there. -/
theorem new_of_nodup {others : List String} (h : (entries.names ++ name :: others).Nodup) :
    name ∉ entries.names ∧ ∀ item, (names (entries ++ [(name, item)]) ++ others).Nodup := by
  refine ⟨fun hmem => ?_, fun item => ?_⟩
  · exact (List.nodup_append.mp h).2.2 name hmem name List.mem_cons_self rfl
  · rwa [names, List.map_append, ← names, List.append_assoc]

variable (hnew : name ∉ entries.names)
include hnew

/-- A new name is put behind all others. -/
theorem alter_new (f : Option Item → Option Item) :
    entries.alter name f = (f none).map fun item => entries ++ [(name, item)] := by
  induction entries with
  | nil => rfl
  | cons entry entries ih =>
      rw [names, List.map_cons, List.mem_cons, not_or] at hnew
      rw [alter, if_neg (Ne.symm hnew.1), ih hnew.2, Option.map_map]
      rfl

/-- The name that came last is found behind all others. -/
theorem alter_last (item : Item) (f : Option Item → Option Item) :
    alter name f (entries ++ [(name, item)]) =
      (f (some item)).map fun item => entries ++ [(name, item)] := by
  induction entries with
  | nil => rw [List.nil_append, alter, if_pos rfl]; rfl
  | cons entry entries ih =>
      rw [names, List.map_cons, List.mem_cons, not_or] at hnew
      rw [List.cons_append, alter, if_neg (Ne.symm hnew.1), ih hnew.2, Option.map_map]
      rfl

end Entries

open Entries

/-- The path of a header in two parts. -/
theorem atHeader_append (f : Entries → Option Entries) (path rest : List String)
    (entries : Entries) :
    atHeader f (path ++ rest) entries = atHeader (atHeader f rest) path entries := by
  induction path generalizing entries with
  | nil => rfl
  | cons name path ih => simp only [List.cons_append, atHeader, ih]

/-- The path leads from a table to the one inside, and `fill` is the outer one with another in its
    place. -/
structure Reaches (path : List String) (outer inner : Entries) (fill : Entries → Entries) :
    Prop where
  present : ∀ f, outer.atHeader f path = (f inner).map fill
  filled : ∀ f table, (fill table).atHeader f path = (f table).map fill

namespace Reaches

theorem root (entries : Entries) : Reaches [] entries entries id :=
  ⟨fun _ => Option.map_id_apply.symm, fun _ _ => Option.map_id_apply.symm⟩

variable {path : List String} {outer inner : Entries} {fill : Entries → Entries}
  (h : Reaches path outer inner fill)
include h

/-- The same place once a table was put there. -/
theorem refill (table : Entries) : Reaches path (fill table) table fill :=
  ⟨fun f => h.filled f table, h.filled⟩

variable {name : String} (hnew : name ∉ inner.names)
include hnew

/-- The path to a table that came last. -/
theorem child (standing : Standing) (table : Entries) :
    Reaches (path ++ [name]) (fill (inner ++ [(name, .table standing table)])) table
      fun table => fill (inner ++ [(name, .table standing table)]) := by
  have hfilled : ∀ f table,
      (fill (inner ++ [(name, .table standing table)])).atHeader f (path ++ [name]) =
        (f table).map fun table => fill (inner ++ [(name, .table standing table)]) := by
    intro f table
    -- The longer path goes to the table outside first, and from there to the name.
    rw [atHeader_append, h.filled, atHeader, alter_last hnew, Option.map_map, atHeader]
    dsimp only
    rw [Option.map_map]
    rfl
  exact ⟨fun f => hfilled f table, hfilled⟩

/-- The path to a table that is not there yet. -/
theorem implied : Reaches (path ++ [name]) outer []
    fun table => fill (inner ++ [(name, .table .implied table)]) := by
  refine ⟨fun f => ?_, (h.child hnew .implied []).filled⟩
  rw [atHeader_append, h.present, atHeader, alter_new hnew, Option.map_map, atHeader]
  dsimp only
  rw [Option.map_map]
  rfl

end Reaches

/-- Keys with their values, as statements. -/
def assignments (own : List (String × Toml)) : List Statement :=
  own.map fun entry => .assignment [] entry.1 entry.2

/-- Following the statements comes to a table that is open and to what is defined by then. -/
def Runs (statements : List Statement) (current : List String) (entries : Entries)
    (current' : List String) (entries' : Entries) : Prop :=
  ∀ rest, follow (statements ++ rest) current entries = follow rest current' entries'

namespace Runs

theorem append {first second : List Statement} {current current' current'' : List String}
    {entries entries' entries'' : Entries} (hfirst : Runs first current entries current' entries')
    (hsecond : Runs second current' entries' current'' entries'') :
    Runs (first ++ second) current entries current'' entries'' := fun rest => by
  rw [List.append_assoc, hfirst, hsecond]

variable {path : List String} {outer inner : Entries} {fill : Entries → Entries}
  (h : Reaches path outer inner fill)
include h

/-- The header of a table that is not there yet. -/
theorem header {name : String} (hnew : name ∉ inner.names) (current : List String) :
    Runs [.header path name] current outer (path ++ [name])
      (fill (inner ++ [(name, .table .defined [])])) := fun rest => by
  have hopen : outer.openTable path name = some (fill (inner ++ [(name, .table .defined [])])) := by
    rw [openTable, h.present, alter_new hnew]
    rfl
  rw [List.singleton_append, follow, hopen]
  rfl

/-- Keys with their values in the open table. -/
theorem assignments (own : List (String × Toml)) (hnew : (inner.names ++ own.map (·.1)).Nodup) :
    Runs (assignments own) path (fill inner) path (fill (inner ++ values own)) := by
  -- Each key moves into the table that is filled, which is why that may be any.
  induction own generalizing outer inner with
  | nil =>
      rw [values, List.map_nil, List.append_nil]
      exact fun _ => rfl
  | cons entry own ih =>
      rw [List.map_cons] at hnew
      rcases new_of_nodup hnew with ⟨hentry, hothers⟩
      have hassign : (fill inner).atHeader (assign [] entry.1 entry.2) path =
          some (fill (inner ++ [(entry.1, .value entry.2)])) := by
        rw [h.filled, assign, assignFrom, if_pos rfl, alter_new hentry]
        rfl
      have hfirst : Runs [.assignment [] entry.1 entry.2] path (fill inner) path
          (fill (inner ++ [(entry.1, .value entry.2)])) := fun rest => by
        rw [List.singleton_append, follow, hassign]
        rfl
      have hrest := ih (h.refill (inner ++ [(entry.1, .value entry.2)])) (hothers _)
      rw [List.append_assoc] at hrest
      exact hfirst.append hrest

end Runs

theorem Item.toToml_table (standing : Standing) (entries : Entries) :
    (Item.table standing entries).toToml = entries.toToml := by
  rw [Item.toToml, Entries.toToml]
  exact congrArg Toml.table
    (List.attach_map_val (f := fun entry : String × Item => (entry.1, entry.2.toToml)) ..)

/-- The statements define a table of that name inside of the one that the path leads to, behind
    everything that is there. -/
def Fills (path : List String) (name : String) (entries : List (String × Toml))
    (statements : List Statement) : Prop :=
  ∀ {outer inner fill} current, Reaches path outer inner fill → name ∉ inner.names →
    ∃ current' standing table,
      Runs statements current outer current' (fill (inner ++ [(name, .table standing table)])) ∧
        Entries.toToml table = .table entries

/-- The statements define several tables, one behind the other. -/
def FillsAll (path : List String) (tables : List (String × List (String × Toml)))
    (statements : List Statement) : Prop :=
  ∀ {outer inner fill} current, Reaches path outer inner fill → (tables = [] → outer = fill inner) →
    (inner.names ++ tables.map (·.1)).Nodup →
    ∃ current' items, Runs statements current outer current' (fill (inner ++ items)) ∧
      items.map (fun entry => (entry.1, entry.2.toToml)) =
        tables.map fun table => (table.1, Toml.table table.2)

theorem FillsAll.nil (path : List String) : FillsAll path [] [] :=
  fun {outer inner fill} current _ houter _ => by
    refine ⟨current, [], ?_, rfl⟩
    rw [List.append_nil, houter rfl]
    exact fun _ => rfl

theorem FillsAll.cons {path : List String} {name : String} {entries : List (String × Toml)}
    {tables : List (String × List (String × Toml))} {first rest : List Statement}
    (hfirst : Fills path name entries first) (hrest : FillsAll path tables rest) :
    FillsAll path ((name, entries) :: tables) (first ++ rest) :=
  fun {outer inner fill} current h _ hnew => by
    rcases new_of_nodup hnew with ⟨hname, hothers⟩
    rcases hfirst current h hname with ⟨middle, standing, table, hrun, htable⟩
    rcases hrest middle (h.refill (inner ++ [(name, .table standing table)])) (fun _ => rfl)
      (hothers _) with ⟨current', items, hruns, hitems⟩
    rw [List.append_assoc] at hruns
    refine ⟨current', (name, .table standing table) :: items, hrun.append hruns, ?_⟩
    rw [List.map_cons, List.map_cons, hitems, Item.toToml_table, htable]

section Layout

/-- The entries of a table: first the keys that have values of their own, then the tables. -/
def laidOut (own : List (String × Toml)) (tables : List (String × List (String × Toml))) :
    List (String × Toml) :=
  own ++ tables.map fun table => (table.1, .table table.2)

variable {own : List (String × Toml)} {tables : List (String × List (String × Toml))}
  {statements : List Statement}

theorem toToml_laidOut (own : List (String × Toml)) {items : Entries}
    (hitems : items.map (fun entry => (entry.1, entry.2.toToml)) =
      tables.map fun table => (table.1, Toml.table table.2)) :
    Entries.toToml (values own ++ items) = .table (laidOut own tables) := by
  have hvalues : (values own).map (fun entry => (entry.1, entry.2.toToml)) = own := by
    have hvalue : ∀ entry : String × Toml, (entry.1, (Item.value entry.2).toToml) = entry := by
      intro entry
      rw [Item.toToml]
    rw [values, List.map_map]
    exact (List.map_congr_left fun entry _ => hvalue entry).trans (List.map_id own)
  rw [Entries.toToml, List.map_append, hvalues, hitems, laidOut]

variable (hnames : (own.map (·.1) ++ tables.map (·.1)).Nodup)
include hnames

/-- A table with a header, its own keys behind the header. -/
theorem Fills.of_header {path : List String} {name : String}
    (htables : FillsAll (path ++ [name]) tables statements) :
    Fills path name (laidOut own tables) (.header path name :: assignments own ++ statements) :=
  fun {outer inner fill} current h hnew => by
    have hinside := h.child hnew .defined []
    have hown := Runs.assignments hinside own (List.nodup_append.mp hnames).1
    rcases htables (path ++ [name]) (hinside.refill (values own)) (fun _ => rfl)
      (by rwa [names_values]) with ⟨current', items, hruns, hitems⟩
    exact ⟨current', .defined, _, ((Runs.header h hnew current).append hown).append hruns,
      toToml_laidOut own hitems⟩

omit hnames in
/-- A table that is implied by the tables in it. -/
theorem Fills.of_tables {path : List String} {name : String} (hne : tables ≠ [])
    (hnames : (tables.map (·.1)).Nodup) (htables : FillsAll (path ++ [name]) tables statements) :
    Fills path name (laidOut [] tables) statements :=
  fun {outer inner fill} current h hnew => by
    rcases htables current (h.implied hnew) (fun hempty => absurd hempty hne) hnames with
      ⟨current', items, hruns, hitems⟩
    exact ⟨current', .implied, _, hruns, toToml_laidOut [] hitems⟩

/-- The table of a whole document. -/
theorem ofStatements?_of_fillsAll (htables : FillsAll [] tables statements) :
    ofStatements? (assignments own ++ statements) = some (.table (laidOut own tables)) := by
  have hown := Runs.assignments (Reaches.root []) own (List.nodup_append.mp hnames).1
  rcases htables [] (Reaches.root (values own)) (fun _ => rfl) (by rwa [names_values]) with
    ⟨current', items, hruns, hitems⟩
  have hfollow := (hown.append hruns) []
  rw [List.append_nil, id_eq] at hfollow
  rw [ofStatements?, hfollow, follow, Option.map_some, id_eq, toToml_laidOut own hitems]

end Layout

end Toml

end HeaderBinding
