/-
# File trees in documents

A file tree is written as the list of its entries, each made in turn where its path says. An entry
is a file with a text, a file with octets in hexadecimal, a link, or a directory.

Key definitions: `Entry.listOfJson`, `FileTree.ofJson`.
-/
import AbiGate.Document.Notation
import AbiGate.Files.Resolve
import AbiGate.Json.Token

namespace AbiGate

namespace Text

/-- The octets that a row of hexadecimal digits names, two digits an octet. -/
def octetsOfHex? : List Char → Option Octets
  | [] => some []
  | [_] => none
  | a :: b :: rest =>
    match Json.hexValue? a, Json.hexValue? b, octetsOfHex? rest with
    | some a, some b, some more => some (UInt8.ofNat (16 * a + b) :: more)
    | _, _, _ => none

end Text

/-- The octets of a member with a text, or of one with hexadecimal digits. -/
def Json.octets? (text hex : String) (j : Json) : Option Text.Octets :=
  match (j.member? text).bind Json.asString? with
  | some s => some (Text.Utf8.encode s)
  | none => ((j.member? hex).bind Json.asString?).bind fun s => Text.octetsOfHex? s.toList

def Entry.ofJson? (j : Json) : Option Entry :=
  match (j.member? "symlink").bind Json.asString? with
  | some target => some (.link ⟨target⟩)
  | none =>
    match j.octets? "content" "hex" with
    | some content => some (.file content)
    | none => if (j.member? "dir").bind Json.asBool? = some true then some .directory else none

/-- The entries of a list, each with the path that it is made at. What names no entry is left
out. -/
def Entry.listOfJson (j : Json) : List (Path × Entry) :=
  (j.asArray?.getD []).filterMap fun e =>
    match (e.member? "path").bind Json.asString?, Entry.ofJson? e with
    | some path, some entry => some (⟨path⟩, entry)
    | _, _ => none

/-- The entry lists of an object, by name. -/
def Entry.listsOfJson (j : Json) : SortedMap String (List (Path × Entry)) :=
  .ofList ((j.asObject?.getD []).map fun e => (e.1, Entry.listOfJson e.2))

/-- The tree of a list of entries. What a link leads out of the tree is left out. -/
def FileTree.ofJson (j : Json) : FileTree :=
  (FileTree.empty.writeAll ["tree"] (Entry.listOfJson j)).subtree ["tree"]

/-- The file trees of an object, by name. -/
def FileTree.treesOfJson (j : Json) : SortedMap String FileTree :=
  .ofList ((j.asObject?.getD []).map fun e => (e.1, FileTree.ofJson e.2))

end AbiGate
