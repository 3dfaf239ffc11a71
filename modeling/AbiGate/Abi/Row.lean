/-
# Rows of a compiler's listing

A compiler lists the surface of a contract as a table, a row a line, with bars between the
columns: the kind of the entry, its declaration, its signature.

    | function | deposit(uint256) | 0xb6b55f25 |

A line that does not start with a bar, and a row of another kind, tells nothing. A row of a
function or event that lacks a column, or whose declaration has no name or no parameter list, is
malformed.

Key definitions: `Row.read`, `Row.readAll`, `RowFault`.
-/
import AbiGate.Abi.Identifier
import AbiGate.Text.Blank
import AbiGate.Text.Quoted

namespace AbiGate

/-- What is wrong with a row of a function or event. -/
inductive RowFault where
  | noDeclaration
  | noParameters
  | noName
  | noSignature
  deriving DecidableEq, Repr

def RowFault.message : RowFault → String
  | noDeclaration => "missing declaration column"
  | noParameters => "declaration has no parameter list"
  | noName => "declaration has no name"
  | noSignature => "missing signature column"

/-- A row of a function or event that cannot be read. -/
structure MalformedRow where
  contract : String
  row : String
  fault : RowFault
  deriving DecidableEq, Repr

def MalformedRow.message (e : MalformedRow) : String :=
  s!"malformed ABI row for {e.contract}: {e.fault.message}: {Text.quoted e.row}"

namespace Row

/-- The cells of a row: the texts between its bars. -/
def cells : List Char → List (List Char)
  | [] => [[]]
  | '|' :: rest => [] :: cells rest
  | c :: rest =>
    match cells rest with
    | [] => [[c]]
    | cell :: more => (c :: cell) :: more

/-- Reads the columns behind the kind. -/
def readColumns (kind : EntryKind) (columns : List (List Char)) : Except RowFault Identifier :=
  match columns with
  | [] => .error .noDeclaration
  | declaration :: more =>
    let declaration := Text.trim declaration
    if declaration.isEmpty then .error .noDeclaration
    else if !declaration.contains '(' then .error .noParameters
    else if (Text.trim (declaration.takeWhile (· ≠ '('))).isEmpty then .error .noName
    else
      match more.head?.bind Text.firstWord? with
      | some signature =>
        .ok (.declared kind (String.ofList declaration) (String.ofList signature))
      | none => .error .noSignature

/-- Reads a line of a listing. A line that describes no function or event gives nothing. -/
def read (line : String) : Except RowFault (Option Identifier) :=
  match Text.trimStart line.toList with
  | '|' :: rest =>
    match cells rest with
    | [] => .ok none
    | kind :: columns =>
      match EntryKind.ofWord? (String.ofList (Text.trim kind)) with
      | some kind => (readColumns kind columns).map some
      | none => .ok none
  | _ => .ok none

/-- Reads a line of the listing of a contract. -/
def readFor (contract line : String) : Except MalformedRow (Option Identifier) :=
  match read line with
  | .ok found => .ok found
  | .error fault => .error { contract, row := line, fault }

/-- Reads the listing of a contract. The first malformed row makes it unreadable. -/
def readAll (contract : String) : List String → Except MalformedRow (List Identifier)
  | [] => .ok []
  | line :: rest =>
    match readFor contract line with
    | .error e => .error e
    | .ok found =>
      match readAll contract rest with
      | .error e => .error e
      | .ok more => .ok (found.toList ++ more)

end Row

end AbiGate
