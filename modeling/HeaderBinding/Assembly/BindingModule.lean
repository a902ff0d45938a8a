import HeaderBinding.Assembly.ClassGraph
import HeaderBinding.Assembly.Dependency
import HeaderBinding.Assembly.InnerTypes
import HeaderBinding.Assembly.SymbolTable
import HeaderBinding.Record.Json

/-!
# Modules

A module ready for binding: the declarations of its headers, merged, ordered and with qualified
signatures, and the other modules it needs.

A module is put together from the records of its headers in four steps. The declarations are brought
together under the collision policy; the included headers are resolved to modules; the classes are
ordered bases first; the inner types in signatures are qualified.

## Main definitions

* `BindingModule`: A module ready for binding.
* `BindingModule.ofHeaders`: Putting one together.
* `BindingModule.class?`, `BindingModule.classTemplate?`, `BindingModule.typedef?`: Finding by name.
* `BindingModule.toJson`: Writing one.
-/

namespace HeaderBinding

/-- A module ready for binding. -/
structure BindingModule where
  name : String
  /-- The directory that holds the headers. -/
  headerDir : Path
  /-- The headers in the order in which they were read. -/
  headers : List Header
  /-- The classes, each behind its bases. -/
  classMap : SymbolMap ClassRecord
  templateMap : SymbolMap ClassTemplate
  typedefMap : SymbolMap Typedef
  enums : List Enumeration
  functions : List FreeFunction
  operators : List FreeFunction
  /-- Marks of exceptions, which nothing fills in yet. -/
  exceptions : List String := []
  /-- The other known modules whose headers are included, in ascending order. -/
  dependencies : List String
  /-- Everything the headers include, in ascending order. -/
  dependencyHeaders : List String

namespace BindingModule

/-- Put a module together from the records of its headers. -/
def ofHeaders (name : String) (headerDir : Path) (headers : List Header) (known : List String)
    (policy : CollisionPolicy) : Except ModuleError BindingModule := do
  let table ← SymbolTable.ofHeaders name headers policy
  let dependencyHeaders := Dict.sortedNames (headers.flatMap (·.dependencies))
  let dependencies := resolveDependencies name dependencyHeaders known
  let sorted ← (sortClasses table.classes.toList).mapError (.cycle name)
  let qualified := qualifyModule sorted table.classTemplates.toList
  return {
    name, headerDir, headers
    classMap := .ofList qualified.classes
    templateMap := .ofList qualified.templates
    typedefMap := table.typedefs
    enums := table.enums
    functions := table.functions
    operators := table.operators
    dependencies, dependencyHeaders }

/-- The classes, each behind its bases. -/
def classes (m : BindingModule) : List ClassRecord :=
  m.classMap.toList

/-- The class templates in the order in which their names appeared. -/
def classTemplates (m : BindingModule) : List ClassTemplate :=
  m.templateMap.toList

/-- The typedefs in the order in which their names appeared. -/
def typedefs (m : BindingModule) : List Typedef :=
  m.typedefMap.toList

/-- The class of a name. -/
def class? (m : BindingModule) (name : String) : Option ClassRecord :=
  m.classMap.get? name

/-- The class template of a name. -/
def classTemplate? (m : BindingModule) (name : String) : Option ClassTemplate :=
  m.templateMap.get? name

/-- The typedef of a name. -/
def typedef? (m : BindingModule) (name : String) : Option Typedef :=
  m.typedefMap.get? name

/-- A module as an object. The headers it was read from are not part of it. -/
def toJson (m : BindingModule) : Json :=
  .obj [("name", .str m.name), ("prefix", .str m.headerDir),
    ("classes", .arr (m.classes.map (·.toJson))),
    ("class_templates", .arr (m.classTemplates.map (·.toJson))),
    ("typedefs", .arr (m.typedefs.map (·.toJson))), ("enums", .arr (m.enums.map (·.toJson))),
    ("functions", .arr (m.functions.map (·.toJson))),
    ("operators", .arr (m.operators.map (·.toJson))), ("exceptions", .strings m.exceptions),
    ("dependencies", .strings m.dependencies),
    ("dependency_headers", .strings m.dependencyHeaders)]

end BindingModule

end HeaderBinding
