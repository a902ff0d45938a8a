import HeaderBinding.Decimal.Shortest
import HeaderBinding.Error
import HeaderBinding.Settings.Basic
import HeaderBinding.Settings.Value
import HeaderBinding.Text.Quoted

/-!
# Settings from Layered Values

Settings are taken from a value once all layers lie over one another. No value is converted into
another kind: a number is no text, and a text is no number. Names that mean nothing are passed over,
and what is missing keeps its default.

The first wrong value is reported, with the names that lead to it and the layer it comes from. The
names of a table are visited in ascending order.

A record may also be given as a list of its fields in their declared order. A field that has no
default of its own has to be there then.

## Main definitions

* `SettingFault`, `SettingsError`: What can be wrong with settings, and where.
* `SettingsError.message`: What is said about it.
* `SettingValue.record`: Reading a record, field by field.
* `Settings.ofValue`: The settings a value stands for.
-/

namespace HeaderBinding

/-- What can be wrong with settings. -/
inductive SettingFault where
  /-- A value of another kind. -/
  | wrongType (found expected : String)
  /-- A value of the right kind that is out of range. -/
  | wrongValue (found expected : String)
  /-- A word that is none of the choices. -/
  | unknownWord (found : String) (choices : List String)
  /-- A list that ends before the field with that index. -/
  | missingItem (index : Nat) (expected : String)
  /-- A file whose text does not follow the grammar. -/
  | malformed
  | unreadable (cause : FileError)
deriving DecidableEq, Inhabited, Repr

/-- What is wrong with settings, and where. -/
structure SettingsError where
  fault : SettingFault
  /-- The names that lead to the wrong value. -/
  path : List String := []
  origin : Origin
deriving DecidableEq, Inhabited, Repr

namespace SettingFault

/-- Choices in words. -/
def listChoices : List String → String
  | [a] => "`" ++ a ++ "`"
  | [a, b] => "`" ++ a ++ "` or `" ++ b ++ "`"
  | choices => "one of " ++ String.intercalate ", " (choices.map fun c => "`" ++ c ++ "`")

/-- What is said about the fault itself. -/
def message : SettingFault → String
  | wrongType found expected => "invalid type: found " ++ found ++ ", expected " ++ expected
  | wrongValue found expected => "invalid value " ++ found ++ ", expected " ++ expected
  | unknownWord found choices =>
    "unknown variant: found `" ++ found ++ "`, expected `" ++ listChoices choices ++ "`"
  | missingItem index expected =>
    "invalid length " ++ toString index ++ ", expected " ++ expected
  | malformed => "TOML parse error\n"
  | unreadable cause => cause.message ++ "\n"

/-- The kind of fault in one word. -/
def kind : SettingFault → String
  | wrongType .. => "InvalidType"
  | wrongValue .. => "InvalidValue"
  | unknownWord .. => "UnknownVariant"
  | missingItem .. => "InvalidLength"
  | malformed | unreadable _ => "Message"

end SettingFault

/-- The start of the names of environment variables that hold settings. -/
def environmentPrefix : String := "CXXBIND_"

namespace Origin

/-- The source in words. -/
def describe : Origin → String
  | builtIn => "built-in settings"
  | file shown => shown ++ " TOML file"
  | environment => "`" ++ environmentPrefix ++ "` environment variable(s)"

/-- The names that lead to a value, as the source writes them. -/
def key (path : List String) : Origin → String
  | environment => String.intercalate "." (path.map (·.map Char.toUpper))
  | _ => String.intercalate "." ("default" :: path)

end Origin

namespace SettingsError

/-- What is said about the error. -/
def message (e : SettingsError) : String :=
  e.fault.message ++
    (if e.path.isEmpty then "" else " for key " ++ Text.quoted (e.origin.key e.path)) ++
    " in " ++ e.origin.describe

end SettingsError

namespace Scalar

/-- The scalar as a message names it. -/
def describe : Scalar → String
  | bool value => "bool " ++ (if value then "true" else "false")
  | signed value => "signed int `" ++ toString value ++ "`"
  | unsigned value => "unsigned int `" ++ toString value ++ "`"
  | float value => "float `" ++ value.text ++ "`"
  | char value => "string " ++ Text.quoted (String.singleton value)
  | str value => "string " ++ Text.quoted value

end Scalar

/-- What a value stands for, or the first thing that is wrong with it. -/
abbrev Decoded (α : Type) := Except SettingsError α

/-- The same outcome with one more name in front of the path. -/
def Decoded.under {α : Type} (name : String) (outcome : Decoded α) : Decoded α :=
  outcome.mapError fun e => { e with path := name :: e.path }

namespace SettingValue

/-- The value as a message names it. -/
def describe : SettingValue → String
  | scalar _ value => value.describe
  | list .. => "sequence"
  | table .. => "map"

/-- The value is not what was expected. -/
def mismatch {α : Type} (v : SettingValue) (expected : String) : Decoded α :=
  .error { fault := .wrongType v.describe expected, origin := v.origin }

/-- A truth value. -/
def bool? : SettingValue → Decoded Bool
  | scalar _ (.bool value) => .ok value
  | v => v.mismatch "a boolean"

/-- A whole number of 32 bits without a sign. -/
def uint32? (v : SettingValue) : Decoded UInt32 :=
  let inRange (value : Int) : Decoded UInt32 :=
    if 0 ≤ value ∧ value.toNat < UInt32.size then .ok (UInt32.ofNat value.toNat)
    else .error { fault := .wrongValue v.describe "u32", origin := v.origin }
  match v with
  | scalar _ (.signed value) => inRange value
  | scalar _ (.unsigned value) => inRange value
  | v => v.mismatch "u32"

/-- A text. A character is a text too. -/
def text? (expected : String) : SettingValue → Decoded String
  | scalar _ (.str value) => .ok value
  | scalar _ (.char value) => .ok (String.singleton value)
  | v => v.mismatch expected

/-- A list whose items are read from `index` on. -/
def items? {α : Type} (read : SettingValue → Decoded α) : Nat → List SettingValue → Decoded (List α)
  | _, [] => .ok []
  | index, v :: vs => do
    let a ← (read v).under (toString index)
    return a :: (← items? read (index + 1) vs)

/-- A list of texts. -/
def texts? : SettingValue → Decoded (List String)
  | list _ items => items? (text? "a string") 0 items
  | v => v.mismatch "a sequence"

/-- A map from names to values. -/
def dict? {α : Type} (read : SettingValue → Decoded α) : SettingValue → Decoded (Dict α)
  | table _ entries => do
    return .ofList (← entries.entries.mapM fun (name, v) => do
      return (name, ← (read v).under name))
  | v => v.mismatch "a map"

/-- One of several choices by its word. A table is read as a choice that has a value; none of the
    choices here has one, so a table is always wrong. -/
def choice? {α : Type} (name : String) (words : List (String × α)) : SettingValue → Decoded α
  | scalar origin (.str word) =>
    match words.lookup word with
    | some value => .ok value
    | none => .error { fault := .unknownWord word (words.map (·.1)), origin }
  | table origin entries =>
    match entries.entries with
    | [] => .error { fault := .wrongType "map" "enum", origin }
    | (word, v) :: _ => Decoded.under word <|
      if (words.lookup word).isSome then v.mismatch "unit"
      else .error { fault := .unknownWord word (words.map (·.1)), origin }
  | v => v.mismatch ("enum " ++ name)

/-- A field of a record: how its value changes the record. -/
structure FieldReader (α : Type) where
  name : String
  read : SettingValue → Decoded (α → α)
  /-- A list may end before the field. -/
  hasDefault : Bool := true

/-- The fields of a record from a table. -/
def fromEntries {α : Type} (fields : List (FieldReader α)) (start : α)
    (entries : Dict SettingValue) : Decoded α :=
  entries.entries.foldlM (fun a (name, v) =>
    match fields.find? (·.name == name) with
    | none => pure a
    | some field => do return (← (field.read v).under name) a) start

/-- The fields of a record from a list, from `index` on. Items behind the last field are passed
    over. -/
def fromItems {α : Type} (origin : Origin) (expected : String) :
    List (FieldReader α) → Nat → List SettingValue → α → Decoded α
  | [], _, _, a => .ok a
  | field :: fields, index, v :: vs, a => do
    let change ← (field.read v).under (toString index)
    fromItems origin expected fields (index + 1) vs (change a)
  | field :: fields, index, [], a =>
    if field.hasDefault then fromItems origin expected fields (index + 1) [] a
    else .error { fault := .missingItem index expected, origin }

/-- A record whose missing fields are those of `start`. -/
def record {α : Type} (name : String) (fields : List (FieldReader α)) (start : α) :
    SettingValue → Decoded α
  | table _ entries => fromEntries fields start entries
  | list origin items =>
    fromItems origin ("struct " ++ name ++ " with " ++ toString fields.length ++ " elements")
      fields 0 items start
  | v => v.mismatch ("struct " ++ name)

end SettingValue

open SettingValue (FieldReader)

/-- The fields of a module's overrides. -/
def ModuleOverrides.fields : List (FieldReader ModuleOverrides) := [
  { name := "strip_macros", read := fun v => do
      let macros ← v.texts?
      return fun o => { o with stripMacros := macros } },
  { name := "skip_headers", read := fun v => do
      let headers ← v.texts?
      return fun o => { o with skipHeaders := headers } }]

/-- The overrides a value stands for. -/
def ModuleOverrides.ofValue : SettingValue → Decoded ModuleOverrides :=
  SettingValue.record "ModuleParserConfig" fields {}

/-- The fields of the parser settings. -/
def ParserSettings.fields : List (FieldReader ParserSettings) := [
  { name := "backend", read := fun v => do
      let backend ← v.choice? "ParserBackend" Backend.words
      return fun s => { s with backend } },
  { name := "header_extension", read := fun v => do
      let headerExtension ← v.text? "a string"
      return fun s => { s with headerExtension } },
  { name := "descriptor_dir", hasDefault := false, read := fun v => do
      let dir ← v.text? "path string"
      return fun s => { s with descriptorDir := some dir } },
  { name := "strip_macros", read := fun v => do
      let stripMacros ← v.texts?
      return fun s => { s with stripMacros } },
  { name := "modules", read := fun v => do
      let modules ← v.dict? ModuleOverrides.ofValue
      return fun s => { s with modules } }]

/-- The parser settings a value stands for. -/
def ParserSettings.ofValue : SettingValue → Decoded ParserSettings :=
  SettingValue.record "ParserSettings" fields {}

/-- The fields of the assembly settings. -/
def AssemblySettings.fields : List (FieldReader AssemblySettings) := [
  { name := "collision_policy", read := fun v => do
      let collisionPolicy ← v.choice? "CollisionPolicy" CollisionPolicy.words
      return fun s => { s with collisionPolicy } }]

/-- The assembly settings a value stands for. -/
def AssemblySettings.ofValue : SettingValue → Decoded AssemblySettings :=
  SettingValue.record "AssemblyConfig" fields {}

namespace Settings

/-- The fields of the settings. -/
def fields : List (FieldReader Settings) := [
  { name := "version", read := fun v => do
      let version ← v.uint32?
      return fun s => { s with version } },
  { name := "debug", read := fun v => do
      let debug ← v.bool?
      return fun s => { s with debug } },
  { name := "prefix", hasDefault := false, read := fun v => do
      let dir ← v.text? "path string"
      return fun s => { s with headerDir := some dir } },
  { name := "known_modules", read := fun v => do
      let knownModules ← v.texts?
      return fun s => { s with knownModules } },
  { name := "assembly", read := fun v => do
      let assembly ← AssemblySettings.ofValue v
      return fun s => { s with assembly } },
  { name := "parser", read := fun v => do
      let parser ← ParserSettings.ofValue v
      return fun s => { s with parser } }]

/-- The settings a value stands for. -/
def ofValue : SettingValue → Decoded Settings :=
  SettingValue.record "Settings" fields {}

end Settings

end HeaderBinding
