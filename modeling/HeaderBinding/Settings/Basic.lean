import HeaderBinding.Dict
import HeaderBinding.Path

/-!
# Settings

What a run can be told: where the headers are, which module names are known, what to do with
redeclarations, and how headers are read.

## Main definitions

* `CollisionPolicy`: What happens to a second declaration of one name.
* `Backend`: Where the records of a header come from.
* `ModuleOverrides`, `ParserSettings`: How headers are read, in general and for one module.
* `Settings`: Everything together, with the built-in defaults.
* `ParserSettings.stripMacrosFor`, `ParserSettings.skipsHeader`: What holds for one module.
-/

namespace HeaderBinding

/-- What happens when two headers declare the same class, template or typedef. -/
inductive CollisionPolicy where
  /-- The later record replaces the earlier one. -/
  | overwrite
  /-- The redeclaration is an error. -/
  | reject
  /-- The later record is folded into the earlier one. -/
  | merge
deriving DecidableEq, Inhabited, Repr

/-- Where the records of a header come from. -/
inductive Backend where
  /-- From the syntax tree of the header. -/
  | treeSitter
  /-- From a descriptor that another tool wrote beforehand. -/
  | json
deriving DecidableEq, Inhabited, Repr

/-- What is different for one module. -/
structure ModuleOverrides where
  /-- Macros to blank out besides the general ones. -/
  stripMacros : List String := []
  /-- File names of headers that are left out of the module. -/
  skipHeaders : List String := []
deriving DecidableEq, Inhabited, Repr

/-- How headers are found and read. -/
structure ParserSettings where
  backend : Backend := .treeSitter
  /-- The extension of the headers of a module. -/
  headerExtension : String := "hxx"
  /-- Where descriptors are looked for; beside the header if absent. -/
  descriptorDir : Option Path := none
  /-- Macros to blank out before a header is read. -/
  stripMacros : List String := ["Standard_EXPORT", "Standard_API", "DEFINE_STANDARD_ALLOC"]
  modules : Dict ModuleOverrides := .empty
deriving DecidableEq, Inhabited, Repr

/-- How modules are put together. -/
structure AssemblySettings where
  collisionPolicy : CollisionPolicy := .overwrite
deriving DecidableEq, Inhabited, Repr

/-- The settings of a run. -/
structure Settings where
  /-- The version of the settings' own format, a 32-bit number. -/
  version : UInt32 := 1
  debug : Bool := false
  /-- The directory that holds the headers. -/
  headerDir : Option Path := none
  /-- The module names that an included header may resolve to. -/
  knownModules : List String := []
  assembly : AssemblySettings := {}
  parser : ParserSettings := {}
deriving DecidableEq, Inhabited, Repr

namespace CollisionPolicy

/-- The words for the policies. -/
def words : List (String × CollisionPolicy) :=
  [("overwrite", overwrite), ("reject", reject), ("merge", merge)]

/-- The word for a policy. -/
def word : CollisionPolicy → String
  | overwrite => "overwrite"
  | reject => "reject"
  | merge => "merge"

end CollisionPolicy

namespace Backend

/-- The words for the backends. -/
def words : List (String × Backend) :=
  [("tree-sitter", treeSitter), ("json", json)]

/-- The word for a backend. -/
def word : Backend → String
  | treeSitter => "tree-sitter"
  | json => "json"

end Backend

namespace ParserSettings

/-- The macros to blank out in the headers of a module: the general ones, then its own. -/
def stripMacrosFor (s : ParserSettings) (module : String) : List String :=
  s.stripMacros ++ (((s.modules.find? module).map (·.stripMacros)).getD [])

/-- The header is left out of the module. -/
def skipsHeader (s : ParserSettings) (module fileName : String) : Bool :=
  (s.modules.find? module).any (·.skipHeaders.contains fileName)

end ParserSettings

end HeaderBinding
