/-
# Members of a contract's surface

A contract shows functions and events to the outside. Each is declared by its name with its
parameter types and carries the signature that the compiler gives it.

Key definitions: `EntryKind`, `Identifier`, `Identifier.declared`, `Keying`, `Identifier.key`.
-/

namespace AbiGate

/-- The kind of a member of the surface. -/
inductive EntryKind where
  | function
  | event
  deriving DecidableEq, Repr

namespace EntryKind

/-- The word for the kind. -/
def word : EntryKind → String
  | function => "function"
  | event => "event"

/-- The kind that a word names. -/
def ofWord? : String → Option EntryKind
  | "function" => some function
  | "event" => some event
  | _ => none

instance : ToString EntryKind := ⟨word⟩

/-- A word names a kind exactly if it is the word for it. -/
theorem ofWord?_eq_some_iff {s : String} {k : EntryKind} : ofWord? s = some k ↔ s = k.word := by
  constructor
  · intro h
    unfold ofWord? at h
    split at h <;> cases h <;> rfl
  · rintro rfl
    cases k <;> rfl

/-- What is said of a word that names no kind. -/
def unknownMessage (word : String) : String :=
  s!"unknown ABI entry kind: {word}"

end EntryKind

/-- A function or event of the surface. -/
structure Identifier where
  kind : EntryKind
  /-- The bare name. -/
  name : String
  /-- The name with the parameter types. -/
  declaration : String
  /-- What the compiler identifies the member by. -/
  signature : String
  deriving DecidableEq, Repr

/-- How the members of a contract are told apart: by the bare name, under which overloads fall
together, or by the whole declaration. -/
inductive Keying where
  | name
  | signature
  deriving DecidableEq, Repr

instance : Inhabited Keying := ⟨.signature⟩

namespace Keying

/-- The word for the keying. -/
def word : Keying → String
  | name => "name"
  | signature => "signature"

/-- The keying that a word names. -/
def ofWord? : String → Option Keying
  | "name" => some name
  | "signature" => some signature
  | _ => none

theorem ofWord?_eq_some_iff {s : String} {k : Keying} : ofWord? s = some k ↔ s = k.word := by
  constructor
  · intro h
    unfold ofWord? at h
    split at h <;> cases h <;> rfl
  · rintro rfl
    cases k <;> rfl

end Keying

namespace Identifier

/-- The part of a declaration in front of its first parenthesis. -/
def nameOf (declaration : String) : String :=
  String.ofList (declaration.toList.takeWhile (· ≠ '('))

/-- The member with a declaration; its name is read off the declaration. -/
def declared (kind : EntryKind) (declaration signature : String) : Identifier where
  kind
  name := nameOf declaration
  declaration
  signature

/-- The key of a member. -/
def key (keying : Keying) (i : Identifier) : String :=
  match keying with
  | .name => i.name
  | .signature => i.declaration

/-- The declaration and the signature, as reports show them. -/
def display (i : Identifier) : String :=
  s!"{i.declaration} [{i.signature}]"

end Identifier

end AbiGate
