import HeaderBinding.Json.Members
import HeaderBinding.Settings.Basic

/-!
# Settings as JSON Values

The settings follow the rules of all records, with two differences. The header directory and the
descriptor directory are left out when they are absent, not written as `null`; and an array that
stands for a record that has one of them must be long enough to reach it, since it has no default by
position.

A choice is written as its word. It may also be given as an object with the word as its only key and
`null` behind it.

## Main definitions

* `Settings.toJson`, `Settings.ofJson?`: Writing and reading the settings.
-/

namespace HeaderBinding

namespace Json

/-- One of several choices by its word. -/
def choice? {α : Type} (words : List (String × α)) : Json → Option α
  | .str word => words.lookup word
  | .obj [(word, .null)] => words.lookup word
  | _ => none

/-- A whole number of 32 bits. -/
def uint32? : Json → Option UInt32
  | .int value =>
    if 0 ≤ value ∧ value.toNat < UInt32.size then some (UInt32.ofNat value.toNat) else none
  | _ => none

/-- An array has at least `n` items; any other value passes. -/
def reaches (n : Nat) : Json → Bool
  | .arr items => n ≤ items.length
  | _ => true

/-- A member that is left out when its value is absent. -/
def memberIfAny (name : String) : Option String → List (String × Json)
  | some value => [(name, .str value)]
  | none => []

end Json

namespace CollisionPolicy

/-- A policy as its word. -/
def toJson (p : CollisionPolicy) : Json := .str p.word

/-- The policy a value stands for. -/
def ofJson? (j : Json) : Option CollisionPolicy := j.choice? words

end CollisionPolicy

namespace Backend

/-- A backend as its word. -/
def toJson (b : Backend) : Json := .str b.word

/-- The backend a value stands for. -/
def ofJson? (j : Json) : Option Backend := j.choice? words

end Backend

namespace ModuleOverrides

/-- Overrides as an object. -/
def toJson (o : ModuleOverrides) : Json :=
  .obj [("strip_macros", .strings o.stripMacros), ("skip_headers", .strings o.skipHeaders)]

/-- The overrides a value stands for. -/
def ofJson? (j : Json) : Option ModuleOverrides := do
  let ms ← j.recordMembers? ["strip_macros", "skip_headers"]
  return {
    stripMacros := ← Json.field? ms "strip_macros" (Json.list? Json.string?) []
    skipHeaders := ← Json.field? ms "skip_headers" (Json.list? Json.string?) [] }

end ModuleOverrides

namespace ParserSettings

/-- Parser settings as an object. -/
def toJson (s : ParserSettings) : Json :=
  .obj ([("backend", s.backend.toJson), ("header_extension", .str s.headerExtension)] ++
    Json.memberIfAny "descriptor_dir" s.descriptorDir ++
    [("strip_macros", .strings s.stripMacros),
      ("modules", .ofDict ModuleOverrides.toJson s.modules)])

/-- The parser settings a value stands for. -/
def ofJson? (j : Json) : Option ParserSettings := do
  let ms ← j.recordMembers? ["backend", "header_extension", "descriptor_dir", "strip_macros",
    "modules"]
  if !j.reaches 3 then none
  let base : ParserSettings := {}
  return {
    backend := ← Json.field? ms "backend" Backend.ofJson? base.backend
    headerExtension := ← Json.field? ms "header_extension" Json.string? base.headerExtension
    descriptorDir := ← Json.field? ms "descriptor_dir" (Json.optional? Json.string?) none
    stripMacros := ← Json.field? ms "strip_macros" (Json.list? Json.string?) base.stripMacros
    modules := ← Json.field? ms "modules" (Json.dict? ModuleOverrides.ofJson?) .empty }

end ParserSettings

namespace AssemblySettings

/-- Assembly settings as an object. -/
def toJson (s : AssemblySettings) : Json :=
  .obj [("collision_policy", s.collisionPolicy.toJson)]

/-- The assembly settings a value stands for. -/
def ofJson? (j : Json) : Option AssemblySettings := do
  let ms ← j.recordMembers? ["collision_policy"]
  return {
    collisionPolicy := ← Json.field? ms "collision_policy" CollisionPolicy.ofJson? .overwrite }

end AssemblySettings

namespace Settings

/-- Settings as an object. -/
def toJson (s : Settings) : Json :=
  .obj ([("version", .int s.version.toNat), ("debug", .bool s.debug)] ++
    Json.memberIfAny "prefix" s.headerDir ++
    [("known_modules", .strings s.knownModules), ("assembly", s.assembly.toJson),
      ("parser", s.parser.toJson)])

/-- The settings a value stands for. -/
def ofJson? (j : Json) : Option Settings := do
  let ms ← j.recordMembers? ["version", "debug", "prefix", "known_modules", "assembly", "parser"]
  if !j.reaches 3 then none
  return {
    version := ← Json.field? ms "version" Json.uint32? 1
    debug := ← Json.field? ms "debug" Json.bool? false
    headerDir := ← Json.field? ms "prefix" (Json.optional? Json.string?) none
    knownModules := ← Json.field? ms "known_modules" (Json.list? Json.string?) []
    assembly := ← Json.field? ms "assembly" AssemblySettings.ofJson? {}
    parser := ← Json.field? ms "parser" ParserSettings.ofJson? {} }

end Settings

end HeaderBinding
