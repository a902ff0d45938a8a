import HeaderBinding.Assembly.SymbolMap

/-!
# The Symbols of a Module

The declarations of all headers of a module, brought together in the order of the headers. Classes,
class templates and typedefs are looked up by name and so have one record a name; enumerations,
functions and operators are listed one after the other.

## Main definitions

* `SymbolTable`: The declarations of a module.
* `SymbolTable.insertAll`: Taking in the declarations of one kind from one header.
* `SymbolTable.addHeader`: Taking in one header.
* `SymbolTable.ofHeaders`: Taking in all of them.
-/

namespace HeaderBinding

/-- The declarations of all headers of a module. -/
structure SymbolTable where
  classes : SymbolMap ClassRecord := {}
  classTemplates : SymbolMap ClassTemplate := {}
  typedefs : SymbolMap Typedef := {}
  enums : List Enumeration := []
  functions : List FreeFunction := []
  operators : List FreeFunction := []
deriving Inhabited

namespace SymbolTable

/-- Take in declarations one by one, stopping at the first that is refused. -/
def insertAll {α : Type} [NamedSymbol α] (policy : CollisionPolicy) (module : String)
    (header : Path) (symbols : SymbolMap α) (items : List α) :
    Except ModuleError (SymbolMap α) :=
  items.foldlM (fun symbols item => symbols.accept item policy module header) symbols

/-- Take in the declarations of one header: its classes, then its templates, then its typedefs, and
    with them everything that is not looked up by name. -/
def addHeader (policy : CollisionPolicy) (module : String) (table : SymbolTable)
    (header : Header) : Except ModuleError SymbolTable := do
  let classes ← insertAll policy module header.path table.classes header.classes
  let classTemplates ←
    insertAll policy module header.path table.classTemplates header.classTemplates
  let typedefs ← insertAll policy module header.path table.typedefs header.typedefs
  return {
    classes, classTemplates, typedefs
    enums := table.enums ++ header.enums
    functions := table.functions ++ header.functions
    operators := table.operators ++ header.operators }

/-- Take in the headers of a module in their order. -/
def ofHeaders (module : String) (headers : List Header) (policy : CollisionPolicy) :
    Except ModuleError SymbolTable :=
  headers.foldlM (addHeader policy module) {}

end SymbolTable

end HeaderBinding
