import HeaderBinding.Decimal.Binary64

/-!
# TOML Values

The values of the TOML format. A table is a list of entries in their written order; a table that was
read has no name twice.

## Main definitions

* `Toml`: The values.
-/

namespace HeaderBinding

/-- A value of the TOML format. -/
inductive Toml where
  | bool (value : Bool)
  | int (value : Int)
  | float (value : Binary64)
  | str (value : String)
  /-- A date, a time or both, in their one canonical spelling. -/
  | moment (text : String)
  | arr (items : List Toml)
  | table (entries : List (String × Toml))
deriving Inhabited, BEq

end HeaderBinding
