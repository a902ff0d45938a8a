import HeaderBinding.Dict
import HeaderBinding.Path

/-!
# Declaration Records

What is known about the declarations of a C++ header: arguments, methods, free functions,
enumerations, typedefs, data members, classes, class templates and the header itself.

Types are kept as they are spelled. Nothing here checks a spelling against a symbol table, and a
record may say anything its fields can hold.

## Main definitions

* `Argument`, `Method`, `FreeFunction`: Callable declarations and their parameters.
* `Enumeration`, `Typedef`, `DataMember`: Declarations without parameters.
* `ClassRecord`: A class with its members; classes nest.
* `TemplateParam`, `ClassTemplate`: A class with template parameters.
* `Header`: Everything one header declares.
-/

namespace HeaderBinding

/-- A parameter of a function or method. -/
structure Argument where
  name : String := ""
  /-- Absent only in records that were not extracted from a header. -/
  type : Option String := none
  defaultValue : Option String := none
deriving DecidableEq, Inhabited, Repr

/-- A method, constructor, destructor or operator of a class. -/
structure Method where
  name : String := ""
  /-- The name with the argument types, such as `SetCoord(const int, const double)`. -/
  fullName : String := ""
  args : List Argument := []
  /-- Absent for constructors and destructors. -/
  returnType : Option String := none
  comment : Option String := none
  isConst : Bool := false
  isStatic : Bool := false
  isVirtual : Bool := false
  isPureVirtual : Bool := false
deriving DecidableEq, Inhabited, Repr

/-- A function or operator outside of classes. -/
structure FreeFunction where
  name : String := ""
  fullName : String := ""
  args : List Argument := []
  returnType : Option String := none
  comment : Option String := none
  isInline : Bool := false
deriving DecidableEq, Inhabited, Repr

/-- An enumeration. One without a name bears the name of its scope. -/
structure Enumeration where
  name : String := ""
  values : List String := []
  comment : Option String := none
  anonymous : Bool := false
deriving DecidableEq, Inhabited, Repr

/-- Another name for a type. -/
structure Typedef where
  name : String := ""
  /-- The spelling of the aliased type. -/
  underlying : String := ""
  comment : Option String := none
deriving DecidableEq, Inhabited, Repr

/-- A public data member of a class. -/
structure DataMember where
  name : String := ""
  type : String := ""
  isStatic : Bool := false
deriving DecidableEq, Inhabited, Repr

/-- A class with its public members and all its nested types. -/
structure ClassRecord where
  name : String := ""
  comment : Option String := none
  path : Option Path := none
  isAbstract : Bool := false
  /-- Public bases as they are spelled; they may belong to other modules. -/
  superclasses : List String := []
  /-- Instance methods by signature key. -/
  methods : Dict Method := ⟨[]⟩
  /-- Static methods by signature key. -/
  staticMethods : Dict Method := ⟨[]⟩
  constructors : List Method := []
  destructors : List Method := []
  operators : List Method := []
  fields : List DataMember := []
  /-- Nested classes by name. -/
  innerClasses : Dict ClassRecord := ⟨[]⟩
  /-- Nested typedefs by name. -/
  typedefs : Dict Typedef := ⟨[]⟩
  enums : List Enumeration := []
deriving Inhabited

/-- What a template parameter stands for. -/
inductive TemplateParam.Kind where
  /-- A type, as in `typename T`. -/
  | type
  /-- A value of a type, as in `int N`. -/
  | nonType (type : String)
  /-- A template, as in `template <class> class C`. -/
  | template
deriving DecidableEq, Inhabited, Repr

/-- A parameter of a class template. -/
structure TemplateParam where
  kind : TemplateParam.Kind
  name : String
  defaultValue : Option String := none
deriving DecidableEq, Inhabited, Repr

/-- A class with template parameters. -/
structure ClassTemplate where
  record : ClassRecord := {}
  typeParams : List TemplateParam := []
deriving Inhabited

/-- Everything extracted from one header. -/
structure Header where
  path : Path := ""
  /-- The file name of the path. -/
  shortName : String := ""
  /-- Included headers, as they are spelled. -/
  dependencies : List String := []
  classes : List ClassRecord := []
  classTemplates : List ClassTemplate := []
  typedefs : List Typedef := []
  enums : List Enumeration := []
  functions : List FreeFunction := []
  operators : List FreeFunction := []
  /-- Class names that are declared here and defined elsewhere. -/
  forwards : List String := []
deriving Inhabited

namespace TemplateParam

/-- A parameter that stands for a type. -/
def ofType (name : String) : TemplateParam :=
  { kind := .type, name }

end TemplateParam

namespace ClassTemplate

/-- The name of the class. -/
def name (t : ClassTemplate) : String :=
  t.record.name

/-- The names of all parameters, whatever they stand for. -/
def paramNames (t : ClassTemplate) : List String :=
  t.typeParams.map (·.name)

end ClassTemplate

namespace Header

/-- The record of a header of which only the path is known. -/
def ofPath (path : Path) : Header :=
  { path, shortName := (path.fileName?).getD "" }

end Header

end HeaderBinding
