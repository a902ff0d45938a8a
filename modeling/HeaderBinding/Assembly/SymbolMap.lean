import HeaderBinding.Error
import HeaderBinding.Record.Merge
import HeaderBinding.Settings.Basic
import Std.Data.HashMap

/-!
# Symbols by Name

An ordered collection in which each name occurs once. A name keeps the slot of its first declaration
for good, so the items stand in the order in which their names appeared, and none of them has been
superseded. An index from names to slots answers look-ups.

## Main definitions

* `NamedSymbol`: A kind of declaration that is looked up by name.
* `SymbolMap`: The items and their index.
* `SymbolMap.insert`: Taking in a declaration under a collision policy.
* `SymbolMap.accept`: The same where a refusal ends the matter.
* `SymbolMap.ofList`: Taking in a list, a later item winning.
* `SymbolMap.get?`, `SymbolMap.contains`: Looking a name up.
-/

namespace HeaderBinding

/-- A kind of declaration that is looked up by name. -/
class NamedSymbol (α : Type) where
  kind : SymbolKind
  symbolName : α → String
  /-- Fold a later declaration of the same name into an earlier one. -/
  mergeFrom : α → α → α

export NamedSymbol (symbolName mergeFrom)

instance : NamedSymbol ClassRecord where
  kind := .classType
  symbolName := ClassRecord.name
  mergeFrom := ClassRecord.extend

instance : NamedSymbol ClassTemplate where
  kind := .classTemplate
  symbolName := ClassTemplate.name
  mergeFrom := ClassTemplate.extend

/-- A typedef has no members to fold; the later spelling wins. -/
instance : NamedSymbol Typedef where
  kind := .typedef
  symbolName := Typedef.name
  mergeFrom _ later := later

/-- Items with distinct names, and the slot of each name. -/
structure SymbolMap (α : Type) where
  items : Array α := #[]
  index : Std.HashMap String Nat := ∅
deriving Inhabited

namespace SymbolMap

variable {α : Type}

/-- The map without items. -/
def empty : SymbolMap α := {}

/-- The items in the order in which their names appeared. -/
def toList (s : SymbolMap α) : List α :=
  s.items.toList

/-- The number of items. -/
def size (s : SymbolMap α) : Nat :=
  s.items.size

/-- A name has an item. -/
def contains (s : SymbolMap α) (name : String) : Bool :=
  s.index.contains name

/-- The item of a name. -/
def get? (s : SymbolMap α) (name : String) : Option α :=
  s.index[name]?.bind fun slot => s.items[slot]?

variable [NamedSymbol α]

/-- Put an item into the slot of its name, or into a new slot at the end. -/
def upsert (s : SymbolMap α) (item : α) : SymbolMap α :=
  match s.index[symbolName item]? with
  | some slot => { s with items := s.items.setIfInBounds slot item }
  | none =>
    { items := s.items.push item, index := s.index.insert (symbolName item) s.items.size }

/-- Take in a list of items. Of two items with one name the later stands, in the slot of the
    first. -/
def ofList (items : List α) : SymbolMap α :=
  items.foldl upsert empty

/-- Take in a declaration from `header`. If its name has a slot already, the policy decides what
    becomes of the two. The map goes on whether or not the declaration is refused. -/
def insert (s : SymbolMap α) (item : α) (policy : CollisionPolicy) (module : String)
    (header : Path) : Except ModuleError Unit × SymbolMap α :=
  match s.index[symbolName item]? with
  | none => (.ok (), s.upsert item)
  | some slot =>
    match policy with
    | .overwrite => (.ok (), { s with items := s.items.setIfInBounds slot item })
    | .merge => (.ok (), { s with items := s.items.modify slot (mergeFrom · item) })
    | .reject =>
      (.error (.duplicateSymbol module (NamedSymbol.kind α) (symbolName item) header), s)

/-- Take in a declaration, or give the map up if it is refused. -/
def accept (s : SymbolMap α) (item : α) (policy : CollisionPolicy) (module : String)
    (header : Path) : Except ModuleError (SymbolMap α) :=
  let (result, s) := s.insert item policy module header
  result.map fun _ => s

end SymbolMap

end HeaderBinding
