/-
# JSON values

A JSON value as it is read from a text or about to be written to one. An object keeps its
members in the order of the text. An integer of 64 bits is told apart from a greater one and from
a number written with a fraction, an exponent or as minus zero, because only the former can be a
version or a count.

Key definitions: `Json`, `Json.member?`, `Json.asUInt64?`.
-/

namespace AbiGate

/-- A JSON value. -/
inductive Json where
  | null
  | bool (value : Bool)
  | integer (value : Int)
  /-- A number that is no plain integer of 64 bits, as it is spelled. -/
  | decimal (spelling : String)
  | string (value : String)
  | array (items : List Json)
  | object (members : List (String × Json))
  deriving Inhabited, Repr, BEq

namespace Json

/-- The value of the last member with a name in a list of members. -/
def memberIn? (name : String) : List (String × Json) → Option Json
  | [] => none
  | (k, v) :: rest => (memberIn? name rest).or (if k = name then some v else none)

/-- The value of a member; of members with the same name the last one counts. -/
def member? (name : String) : Json → Option Json
  | .object members => memberIn? name members
  | _ => none

def asString? : Json → Option String
  | .string s => some s
  | _ => none

def asBool? : Json → Option Bool
  | .bool b => some b
  | _ => none

def asArray? : Json → Option (List Json)
  | .array items => some items
  | _ => none

def asObject? : Json → Option (List (String × Json))
  | .object members => some members
  | _ => none

/-- The integer, if it is not negative. -/
def asNat? : Json → Option Nat
  | .integer (.ofNat n) => some n
  | _ => none

/-- The integer, if it is a number of at most 64 binary digits. -/
def asUInt64? (j : Json) : Option UInt64 :=
  match j.asNat? with
  | some n => if n < UInt64.size then some (UInt64.ofNat n) else none
  | none => none

/-- The integer of a 64 bit number. -/
def ofUInt64 (n : UInt64) : Json :=
  .integer n.toNat

/-- The array of a list of texts. -/
def ofStrings (l : List String) : Json :=
  .array (l.map .string)

/-- A text, or null for none. -/
def ofOption {α : Type} (f : α → Json) : Option α → Json
  | some a => f a
  | none => .null

@[simp] theorem asUInt64?_ofUInt64 (n : UInt64) : (ofUInt64 n).asUInt64? = some n := by
  simp [ofUInt64, asUInt64?, asNat?, n.toNat_lt]

end Json

end AbiGate
