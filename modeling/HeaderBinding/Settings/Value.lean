import HeaderBinding.Dict
import HeaderBinding.Path
import HeaderBinding.Toml.Basic

/-!
# Layered Values

Settings come in layers: the built-in ones, those of a file, and those of the environment. Each
layer is a value, and every part of it remembers which layer it comes from, so that a wrong one can
be traced. A later layer is laid over an earlier one: tables join name by name, and anything else
covers what was there.

## Main definitions

* `Origin`: The layers.
* `SettingValue`: A value whose parts remember their layer.
* `SettingValue.ofToml`: The value of a TOML value.
* `SettingValue.overlay`: One layer over another.
-/

namespace HeaderBinding

/-- Where a value was written. -/
inductive Origin where
  | builtIn
  /-- A file, by the path it is shown with. -/
  | file (shown : Path)
  | environment
deriving DecidableEq, Inhabited, Repr

/-- A value without parts. A character is told from a string, and a number without a sign from one
    that may have one, because messages name them differently. -/
inductive Scalar where
  | bool (value : Bool)
  | signed (value : Int)
  | unsigned (value : Nat)
  | float (value : Binary64)
  | char (value : Char)
  | str (value : String)
deriving DecidableEq, Inhabited, Repr

/-- A value whose parts remember where they were written. -/
inductive SettingValue where
  | scalar (origin : Origin) (value : Scalar)
  | list (origin : Origin) (items : List SettingValue)
  | table (origin : Origin) (entries : Dict SettingValue)
deriving Inhabited

namespace SettingValue

/-- Where a value was written. -/
def origin : SettingValue → Origin
  | scalar o _ | list o _ | table o _ => o

/-- The name under which the text of a date or time is found in the table that stands for it. -/
def momentKey : String := "$__toml_private_datetime"

/-- The value of a TOML value. A date or time is a table with its text. -/
def ofToml (origin : Origin) : Toml → SettingValue
  | .bool value => scalar origin (.bool value)
  | .int value => scalar origin (.signed value)
  | .float value => scalar origin (.float value)
  | .str value => scalar origin (.str value)
  | .moment text => table origin (.ofList [(momentKey, scalar origin (.str text))])
  | .arr items => list origin (items.attach.map fun ⟨item, _⟩ => ofToml origin item)
  | .table entries =>
    table origin (.ofList (entries.attach.map fun ⟨⟨name, value⟩, _⟩ =>
      (name, ofToml origin value)))
termination_by value => sizeOf value
decreasing_by
  all_goals
    rename_i h
    have := List.sizeOf_lt_of_mem h
    simp only [Toml.arr.sizeOf_spec, Toml.table.sizeOf_spec, Prod.mk.sizeOf_spec] at *
    omega

/-- The later value over the earlier one. -/
def overlay (earlier : SettingValue) : SettingValue → SettingValue
  | table origin later =>
    match earlier with
    | table _ entries =>
      table origin (later.entries.attach.foldl (fun joined ⟨⟨name, value⟩, _⟩ =>
        joined.insert name (match entries.find? name with
          | some covered => overlay covered value
          | none => value)) entries)
    | _ => table origin later
  | later => later
termination_by later => sizeOf later
decreasing_by
  rename_i h
  have := Dict.sizeOf_lt_of_mem h
  simp only [table.sizeOf_spec] at *
  omega

end SettingValue

end HeaderBinding
