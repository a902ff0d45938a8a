import HeaderBinding.Toml.Basic

/-!
# Tables from Statements

A TOML document is a list of statements: headers, which open a table, and assignments, which give a
key of the open table a value. This module says which lists of statements define something, and
what.

A table comes to be in one of three ways, its `Standing`. A header defines it; a longer header
implies it; or a dotted key does. A header may define a table that was only implied, and nothing
else twice. A dotted key goes through tables that no header has defined, and ends in a table of
dotted keys. Headers go through tables of any standing, and through an array of tables to its last
element.

## Main definitions

* `Statement`: The statements.
* `Item`: What a name stands for while a document is read.
* `Entries.assign`, `Entries.openTable`, `Entries.appendTable`: What the statements do.
* `Toml.ofStatements?`: The table of a document.
* `Toml.ofAssignments?`: The table of an inline table.
-/

namespace HeaderBinding

namespace Toml

/-- A statement of a document. -/
inductive Statement where
  /-- `path.key = value`. -/
  | assignment (path : List String) (key : String) (value : Toml)
  /-- `[path.key]`. -/
  | header (path : List String) (key : String)
  /-- `[[path.key]]`. -/
  | elementHeader (path : List String) (key : String)
deriving Inhabited

/-- How a table came to be. -/
inductive Standing where
  | defined
  | implied
  | dotted
deriving DecidableEq, Inhabited, Repr

/-- What a name stands for while a document is read. -/
inductive Item where
  | value (value : Toml)
  | table (standing : Standing) (entries : List (String × Item))
  /-- An array of tables: the elements that are complete, and the last one. -/
  | elements (complete : List Toml) (last : List (String × Item))
deriving Inhabited

/-- The names of a table while a document is read. -/
abbrev Entries := List (String × Item)

/-- The value of an item that is complete. -/
def Item.toToml : Item → Toml
  | value v => v
  | table _ entries =>
    .table (entries.attach.map fun ⟨⟨name, item⟩, _⟩ => (name, item.toToml))
  | elements complete last =>
    .arr (complete ++
      [.table (last.attach.map fun ⟨⟨name, item⟩, _⟩ => (name, item.toToml))])
termination_by item => sizeOf item
decreasing_by
  all_goals
    rename_i h
    have := List.sizeOf_lt_of_mem h
    simp only [table.sizeOf_spec, elements.sizeOf_spec, Prod.mk.sizeOf_spec] at *
    omega

namespace Entries

/-- The value of a table that is complete. -/
def toToml (entries : Entries) : Toml :=
  .table (entries.map fun (name, item) => (name, item.toToml))

/-- Put what a name stands for in place of what it stood for, if anything, and if that is possible.
    -/
def alter (name : String) (f : Option Item → Option Item) : Entries → Option Entries
  | [] => (f none).map fun item => [(name, item)]
  | entry :: entries =>
    if entry.1 = name then (f (some entry.2)).map fun item => (name, item) :: entries
    else (alter name f entries).map (entry :: ·)

/-- Change the table that the path of a header leads to. Missing tables are implied. -/
def atHeader (f : Entries → Option Entries) : List String → Entries → Option Entries
  | [], entries => f entries
  | name :: path, entries => entries.alter name fun
    | none => (atHeader f path []).map (.table .implied)
    | some (.table standing inner) => (atHeader f path inner).map (.table standing)
    | some (.elements complete last) => (atHeader f path last).map (.elements complete)
    | some (.value _) => none

/-- Define the table of a header. -/
def openTable (path : List String) (name : String) : Entries → Option Entries :=
  atHeader (alter name fun
    | none => some (.table .defined [])
    | some (.table .implied inner) => some (.table .defined inner)
    | _ => none) path

/-- Add an element to the array of tables of a header. -/
def appendTable (path : List String) (name : String) : Entries → Option Entries :=
  atHeader (alter name fun
    | none => some (.elements [] [])
    | some (.elements complete last) => some (.elements (complete ++ [Entries.toToml last]) [])
    | _ => none) path

/-- Give a key a value in the table that a dotted path leads to. The table at hand has to admit keys
    of that kind if the path ends there. -/
def assignFrom (key : String) (value : Toml) :
    List String → (admits : Bool) → Entries → Option Entries
  | [], admits, entries =>
    if admits then entries.alter key fun
      | none => some (.value value)
      | some _ => none
    else none
  | name :: path, _, entries => entries.alter name fun
    | none => (assignFrom key value path true []).map (.table .dotted)
    | some (.table .defined _) => none
    | some (.table standing inner) =>
      (assignFrom key value path (standing = .dotted) inner).map (.table standing)
    | some (.elements complete last) =>
      (assignFrom key value path false last).map (.elements complete)
    | some (.value _) => none

/-- Give a key a value in the open table. -/
def assign (path : List String) (key : String) (value : Toml) : Entries → Option Entries :=
  assignFrom key value path true

end Entries

/-- Follow the statements, given the path of the table that is open. -/
def follow : List Statement → List String → Entries → Option Entries
  | [], _, entries => some entries
  | .assignment path key value :: rest, current, entries => do
    follow rest current (← Entries.atHeader (Entries.assign path key value) current entries)
  | .header path key :: rest, _, entries => do
    follow rest (path ++ [key]) (← Entries.openTable path key entries)
  | .elementHeader path key :: rest, _, entries => do
    follow rest (path ++ [key]) (← Entries.appendTable path key entries)

/-- The table of a document. -/
def ofStatements? (statements : List Statement) : Option Toml :=
  (follow statements [] []).map Entries.toToml

/-- The table of the assignments between the braces of an inline table. -/
def ofAssignments? (assignments : List (List String × String × Toml)) : Option Toml :=
  ofStatements? (assignments.map fun (path, key, value) => .assignment path key value)

end Toml

end HeaderBinding
