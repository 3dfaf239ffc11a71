/-
# Documents

Settings and snapshots are read from documents in more than one notation. All that a reader
needs of a notation is how it writes three things: a record, a text, and a choice among words.

A record is a collection of named fields, or the list of its fields in their order; a field that
the record does not know is passed over, and one that it knows must not be given twice.

Key definitions: `Notation`, `Notation.field`, `Notation.choice`, `Json.documents`.
-/
import AbiGate.Json.Basic

namespace AbiGate

/-- How documents in a notation are taken apart. -/
structure Notation (δ : Type) where
  /-- The fields of a record with these names, each if it is there. -/
  record? : (names : List String) → δ → Option (List (Option δ))
  text? : δ → Option String
  /-- A word that stands for itself, or a choice that carries nothing. -/
  word? : δ → Option String

namespace Notation

variable {δ α : Type} (n : Notation δ)

/-- A field that has a default: the default if it is absent, else what is read from it. -/
def field (default : α) (read : δ → Option α) : Option δ → Option α
  | none => some default
  | some d => read d

/-- A choice among words. -/
def choice? (ofWord? : String → Option α) (d : δ) : Option α :=
  (n.word? d).bind ofWord?

/-- The items of a list under these names, each if the list is long enough. -/
def inOrder : (names : List String) → List δ → List (Option δ)
  | [], _ => []
  | _ :: names, [] => none :: inOrder names []
  | _ :: names, item :: items => some item :: inOrder names items

end Notation

namespace Json

/-- Whether no field of a record is given more than once. -/
def givesOnce (names : List String) (members : List (String × Json)) : Bool :=
  names.all fun name => members.countP (·.1 = name) ≤ 1

/-- JSON documents. A record may be an object or an array; an array may not be longer than the
record. A choice that carries nothing is an object with one member, null. -/
def documents : Notation Json where
  record? names
    | .object members =>
      if givesOnce names members then some (names.map (memberIn? · members)) else none
    | .array items =>
      if items.length ≤ names.length then some (Notation.inOrder names items) else none
    | _ => none
  text? := asString?
  word?
    | .string s => some s
    | .object [(word, .null)] => some word
    | _ => none

end Json

end AbiGate
