/-
# Extraction

The snapshot of a source tree holds its tracked contracts. Sources are taken in the order of the
walk: a source that cannot be read or declares no number, a second contract with the same name, a
contract that cannot be inspected, and a row that cannot be read each end the extraction with an
error. There is no partial result. A contract is inspected only after its name was found free.

What inspects a contract is a parameter, and may act in any monad.

Key definitions: `Inspector`, `addSource`, `extract`.
-/
import AbiGate.Extraction.Source

namespace AbiGate

/-- Gives the lines that list the surface of a contract, or says why it cannot. -/
abbrev Inspector (m : Type → Type) := (contract : Path) → m (Except String (List String))

/-- The contract that a tracked source and the lines of its listing describe. -/
def Tracked.contract (t : Tracked) (keying : Keying) (rows : List String) :
    Except MalformedRow Contract :=
  (Row.readAll t.name rows).map fun members =>
    (Contract.new t.path t.version).insertAll keying members

section

variable {m : Type → Type} [Monad m]

/-- Puts a tracked source into a snapshot. -/
def addTracked (s : ExtractionSettings) (inspect : Inspector m) (snapshot : Snapshot)
    (t : Tracked) : ExceptT ExtractionError m Snapshot := do
  match snapshot.get? t.name with
  | some first =>
    throw (.duplicate { name := t.name, first := first.path, second := t.path })
  | none =>
    match ← inspect t.path with
    | .error reason => throw (.inspection t.path reason)
    | .ok rows =>
      match t.contract s.keying rows with
      | .error e => throw (.malformedRow e)
      | .ok c =>
        match snapshot.insert t.name c with
        | .error e => throw (.duplicate e)
        | .ok snapshot => return snapshot

/-- Puts a source into a snapshot, if it is tracked. -/
def addSource (s : ExtractionSettings) (root : Path) (inspect : Inspector m)
    (snapshot : Snapshot) (source : Source) : ExceptT ExtractionError m Snapshot :=
  match source.recognize s root with
  | .error e => throw e
  | .ok none => return snapshot
  | .ok (some t) => addTracked s inspect snapshot t

/-- The snapshot of the sources below a root. -/
def extract (s : ExtractionSettings) (root : SourceRoot) (inspect : Inspector m) :
    ExceptT ExtractionError m Snapshot :=
  (root.sources s).foldlM (addSource s root.path inspect) .empty

end

/-- Inspects by looking the contract's name up in a table; a contract that is not there shows
nothing. -/
def tabled (rows : SortedMap String (List String)) (contract : Path) : List String :=
  (rows.get? contract.stem).getD []

end AbiGate
