/-
# UTF-8

Octets read as UTF-8, one at a time. Between characters the reader owes nothing; after a lead
octet it owes continuation octets, the first of which may be confined to a part of `80`–`BF` so
that no character has two forms and no surrogate has one. An octet that is not owed ends the
character begun, which is ill-formed, and is then read as the start of the next.

The result names each character, and each longest run of octets that begins a character and
does not end it. A strict reading refuses a text with such a run; a lenient one writes the
replacement character for each.

Key definitions: `Utf8.read`, `Utf8.decode?`, `Utf8.decodeLenient`.
-/

namespace AbiGate.Text

/-- The octets of a file or a stream. -/
abbrev Octets := List UInt8

namespace Utf8

/-- A character begun: the number its octets have made so far, how many octets it still lacks,
and the least and the greatest octet that may come next. -/
structure Begun where
  value : Nat
  missing : Nat
  least : UInt8 := 0x80
  greatest : UInt8 := 0xBF

/-- What an octet is at the start of a character. -/
inductive Lead where
  | whole (c : Char)
  | begun (b : Begun)
  | stray

/-- Reads an octet at the start of a character. -/
def lead (b : UInt8) : Lead :=
  let n := b.toNat
  if n < 0x80 then .whole (Char.ofNat n)
  else if n < 0xC2 then .stray
  else if n < 0xE0 then .begun { value := n - 0xC0, missing := 1 }
  else if n = 0xE0 then .begun { value := 0, missing := 2, least := 0xA0 }
  else if n = 0xED then .begun { value := 0xD, missing := 2, greatest := 0x9F }
  else if n < 0xF0 then .begun { value := n - 0xE0, missing := 2 }
  else if n = 0xF0 then .begun { value := 0, missing := 3, least := 0x90 }
  else if n < 0xF4 then .begun { value := n - 0xF0, missing := 3 }
  else if n = 0xF4 then .begun { value := 4, missing := 3, greatest := 0x8F }
  else .stray

/-- Reads octets behind a character begun, or behind none. Each item of the result is a
character, or nothing for an ill-formed run. -/
def readAfter : Option Begun → Octets → List (Option Char)
  | none, [] => []
  | some _, [] => [none]
  | none, b :: rest =>
    match lead b with
    | .whole c => some c :: readAfter none rest
    | .begun s => readAfter (some s) rest
    | .stray => none :: readAfter none rest
  | some s, b :: rest =>
    if s.least ≤ b ∧ b ≤ s.greatest then
      let value := s.value * 64 + (b.toNat - 0x80)
      if s.missing ≤ 1 then some (Char.ofNat value) :: readAfter none rest
      else readAfter (some { value, missing := s.missing - 1 }) rest
    else
      match lead b with
      | .whole c => none :: some c :: readAfter none rest
      | .begun s => none :: readAfter (some s) rest
      | .stray => none :: none :: readAfter none rest

/-- The characters of a text, with nothing in the place of each ill-formed run. -/
def read (octets : Octets) : List (Option Char) :=
  readAfter none octets

/-- The text, if all of it is well-formed. -/
def decode? (octets : Octets) : Option String :=
  ((read octets).mapM id).map String.ofList

/-- The text with the replacement character for each ill-formed run. -/
def decodeLenient (octets : Octets) : String :=
  String.ofList ((read octets).map fun c => c.getD '\uFFFD')

/-- The octets of a text. -/
def encode (s : String) : Octets :=
  s.toUTF8.toList

/-- A text that is well-formed reads the same in both ways. -/
theorem decodeLenient_of_decode? {octets : Octets} {s : String} (h : decode? octets = some s) :
    decodeLenient octets = s := by
  obtain ⟨cs, hcs, rfl⟩ := Option.map_eq_some_iff.1 (show _ = some s from h)
  clear h
  unfold decodeLenient
  congr 1
  generalize read octets = items at hcs
  induction items generalizing cs with
  | nil => cases hcs; rfl
  | cons c rest ih =>
    simp only [List.mapM_cons, Option.bind_eq_bind, id_eq] at hcs
    cases c with
    | none => cases hcs
    | some c =>
      simp only [Option.bind_some, Option.bind_eq_some_iff] at hcs
      obtain ⟨tail, ht, hc⟩ := hcs
      cases hc
      simp [ih tail ht]

end Utf8

end AbiGate.Text
