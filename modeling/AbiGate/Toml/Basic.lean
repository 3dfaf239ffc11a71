/-
# TOML values

Key definitions: `Toml`.
-/

namespace AbiGate

/-- A value of a TOML document. Settings are texts, so numbers, truth values and points in time
are kept as they are spelled. -/
inductive Toml where
  | string (value : String)
  /-- A number or a truth value. -/
  | bare (spelling : String)
  /-- A date, a time, or both. -/
  | moment (spelling : String)
  | array (items : List Toml)
  | table (members : List (String × Toml))
  deriving Inhabited, Repr, BEq

end AbiGate
