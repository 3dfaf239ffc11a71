/-
# Version markers

A source declares the version of its contract's surface in a line that starts, blanks aside,
with a fixed text; the version is what stands between that text and the first semicolon. The
first such line decides. A source without one declares no version.

Key definitions: `VersionMarker.literal?`, `VersionMarker.scan`, `InvalidVersion`.
-/
import AbiGate.Path
import AbiGate.Text.Blank
import AbiGate.Text.Line
import AbiGate.Text.Numeral
import AbiGate.Text.Quoted

namespace AbiGate

/-- A version marker whose value is no number, or too large a one. -/
structure InvalidVersion where
  path : Path
  /-- The number of the line, from one. -/
  line : Nat
  literal : String
  deriving DecidableEq, Repr

def InvalidVersion.message (e : InvalidVersion) : String :=
  s!"{e.path}:{e.line}: ABI version {Text.quoted e.literal} is not a non-negative integer"

namespace VersionMarker

/-- The value that a line declares, as it is spelled. -/
def literal? (start line : List Char) : Option (List Char) :=
  (start.isPrefixOf? (Text.trim line)).map fun rest => Text.trim (rest.takeWhile (· ≠ ';'))

/-- The first line that declares a value, by its number, and the value. -/
def find? (start : List Char) : (number : Nat) → List (List Char) → Option (Nat × List Char)
  | _, [] => none
  | number, line :: rest =>
    match literal? start line with
    | some literal => some (number, literal)
    | none => find? start (number + 1) rest

/-- The version that a source declares, if it declares one. -/
def scan (path : Path) (start source : String) : Except InvalidVersion (Option UInt64) :=
  match find? start.toList 1 (Text.cutLines source.toList) with
  | none => .ok none
  | some (line, literal) =>
    match Text.readUInt64? literal with
    | some version => .ok (some version)
    | none => .error { path, line, literal := String.ofList literal }

end VersionMarker

end AbiGate
