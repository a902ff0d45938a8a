/-!
# Maps Sorted by Name

A finite map from names to values, held as a list of entries in ascending order of the names.
Strings compare by code point, which is also the order of their UTF-8 bytes, so a map is written out
in one order whatever the order it was filled in.

The order is kept by the operations and not by the type: class records hold maps of class records,
and a type that carries a proof about its entries cannot be nested in its own definition.
`Dict.Sorted` says what the operations keep.

## Main definitions

* `Dict`: The entries of a map.
* `Dict.find?`, `Dict.insert`: Looking a name up, and giving it a value.
* `Dict.union`: The entries of two maps, the second winning.
* `Dict.ofList`: The map of a list of entries, a later one winning.
* `Dict.sortedNames`: A set of names, written in order.
* `Dict.Sorted`: Strictly ascending names.
-/

namespace HeaderBinding

/-- The entries of a map from names to values. -/
structure Dict (α : Type) where
  /-- The entries in ascending order of the names. -/
  entries : List (String × α) := []
deriving DecidableEq, Inhabited, Repr

namespace Dict

variable {α β : Type}

/-- The map without entries. -/
def empty : Dict α := ⟨[]⟩

/-- The names of the map. -/
def keys (d : Dict α) : List String :=
  d.entries.map (·.1)

/-- The values of the map, in the order of their names. -/
def values (d : Dict α) : List α :=
  d.entries.map (·.2)

/-- The value of a name. -/
def find? (d : Dict α) (key : String) : Option α :=
  (d.entries.find? (·.1 == key)).map (·.2)

/-- A name has a value. -/
def contains (d : Dict α) (key : String) : Bool :=
  d.entries.any (·.1 == key)

/-- Put an entry in front of the first greater name, in place of an entry of the same name. -/
def insertEntry (key : String) (value : α) : List (String × α) → List (String × α)
  | [] => [(key, value)]
  | entry :: rest =>
    if key = entry.1 then (key, value) :: rest
    else if key < entry.1 then (key, value) :: entry :: rest
    else entry :: insertEntry key value rest

/-- Give a name a value, in place of the one it had. -/
def insert (d : Dict α) (key : String) (value : α) : Dict α :=
  ⟨insertEntry key value d.entries⟩

/-- The map of a list of entries. Of two entries with one name the later wins. -/
def ofList (entries : List (String × α)) : Dict α :=
  entries.foldl (fun d entry => d.insert entry.1 entry.2) empty

/-- The entries of both maps. A name of both has the value of the second. -/
def union (d e : Dict α) : Dict α :=
  e.entries.foldl (fun d entry => d.insert entry.1 entry.2) d

/-- Apply a function to every value. -/
def map (f : α → β) (d : Dict α) : Dict β :=
  ⟨d.entries.map fun entry => (entry.1, f entry.2)⟩

/-- The names of a list in ascending order, each once. -/
def sortedNames (names : List String) : List String :=
  (ofList (names.map fun name => (name, ()))).keys

/-- The names ascend strictly, so that each occurs once. -/
def Sorted (d : Dict α) : Prop :=
  d.entries.Pairwise (·.1 < ·.1)

/-- Entries of a map are smaller than the map, which is what recursion through nested maps needs. -/
theorem sizeOf_lt_of_mem [SizeOf α] {d : Dict α} {entry : String × α} (h : entry ∈ d.entries) :
    sizeOf entry.2 < sizeOf d := by
  cases d with
  | mk entries =>
    replace h : entry ∈ entries := h
    have hentry := List.sizeOf_lt_of_mem h
    have hpair : sizeOf entry = 1 + sizeOf entry.1 + sizeOf entry.2 := by
      cases entry
      simp only [Prod.mk.sizeOf_spec]
    simp only [mk.sizeOf_spec]
    omega

end Dict

end HeaderBinding
