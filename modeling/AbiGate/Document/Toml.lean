/-
# TOML documents

Key definitions: `Toml.documents`.
-/
import AbiGate.Document.Notation
import AbiGate.Toml.Reader

namespace AbiGate.Toml

/-- The value of a member of a table. -/
def memberIn? (name : String) (members : List (String × Toml)) : Option Toml :=
  (members.find? (·.1 = name)).map (·.2)

/-- Whether a value holds nothing. -/
def isVoid : Toml → Bool
  | array [] => true
  | table [] => true
  | _ => false

/-- TOML documents. A record may be a table or an array; items that an array has beyond the record
are passed over. A point in time is a record without known fields. A choice that carries nothing is
a table with one member that holds nothing. -/
def documents : Notation Toml where
  record? names
    | .table members => some (names.map (memberIn? · members))
    | .array items => some (Notation.inOrder names items)
    | .moment _ => some (Notation.inOrder names [])
    | _ => none
  text?
    | .string s => some s
    | _ => none
  word?
    | .string s => some s
    | .table [(word, value)] => if value.isVoid then some word else none
    | _ => none

end AbiGate.Toml
