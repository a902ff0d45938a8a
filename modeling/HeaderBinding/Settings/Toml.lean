import HeaderBinding.Settings.Basic
import HeaderBinding.Toml.Basic

/-!
# Settings as TOML Values

The settings as the table that a settings file holds. Every field is written, with one exception: a
directory that is absent has no entry, since the format has no word for an absent value.

## Main definitions

* `Settings.toToml`: The table of the settings.
-/

namespace HeaderBinding

namespace Toml

/-- A list of texts. -/
def strings (texts : List String) : Toml := .arr (texts.map .str)

/-- An entry that is left out when its value is absent. -/
def entryIfAny (name : String) : Option String → List (String × Toml)
  | some value => [(name, .str value)]
  | none => []

end Toml

/-- The table of a module's overrides. -/
def ModuleOverrides.toToml (o : ModuleOverrides) : Toml :=
  .table [("strip_macros", .strings o.stripMacros), ("skip_headers", .strings o.skipHeaders)]

/-- The table of the assembly settings. -/
def AssemblySettings.toToml (s : AssemblySettings) : Toml :=
  .table [("collision_policy", .str s.collisionPolicy.word)]

/-- The table of the parser settings. -/
def ParserSettings.toToml (s : ParserSettings) : Toml :=
  .table ([("backend", .str s.backend.word), ("header_extension", .str s.headerExtension)] ++
    Toml.entryIfAny "descriptor_dir" s.descriptorDir ++
    [("strip_macros", .strings s.stripMacros),
      ("modules", .table (s.modules.map ModuleOverrides.toToml).entries)])

/-- The table of the settings. -/
def Settings.toToml (s : Settings) : Toml :=
  .table ([("version", .int s.version.toNat), ("debug", .bool s.debug)] ++
    Toml.entryIfAny "prefix" s.headerDir ++
    [("known_modules", .strings s.knownModules), ("assembly", s.assembly.toToml),
      ("parser", s.parser.toToml)])

end HeaderBinding
