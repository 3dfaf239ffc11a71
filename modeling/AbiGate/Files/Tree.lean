/-
# File trees

A file tree is a map from locations to entries. A location is the row of names that leads from
the top to an entry, so the order of the map is the order in which one walks the tree: the
entries of a directory by name, and all that is below a directory at its place.

Names are Unicode texts; names that are not Unicode are left out, and so are permissions. How long
a path may be is tested where it is followed, so a tree may hold more than there are paths to.

Key definitions: `FileTree`, `FileTree.entry?`, `FileTree.below`, `FileTree.children`,
`FileTree.put`, `FileTree.graft`.
-/
import AbiGate.Path
import AbiGate.SortedMap
import AbiGate.Text.Utf8

namespace AbiGate

/-- The names that lead from the top of a tree to an entry. The top itself is at `[]`. -/
abbrev Location := List String

/-- What is at a location. -/
inductive Entry where
  | file (content : Text.Octets)
  | link (target : Path)
  | directory
  deriving DecidableEq, Repr

def Entry.isFile : Entry → Bool
  | file _ => true
  | _ => false

/-- The entries of a tree by their locations. -/
structure FileTree where
  entries : SortedMap Location Entry
  deriving DecidableEq, Repr

namespace FileTree

/-- The tree that has nothing but its top. -/
def empty : FileTree := ⟨.empty⟩

instance : Inhabited FileTree := ⟨empty⟩

/-- What is at a location; the top is always a directory. -/
def entry? (t : FileTree) : Location → Option Entry
  | [] => some .directory
  | l => t.entries.get? l

def isDirectory (t : FileTree) (l : Location) : Bool :=
  t.entry? l = some .directory

/-- Where a location is as seen from a directory that it is below. -/
def seenFrom? (directory l : Location) : Option Location :=
  if directory.isPrefixOf l ∧ directory ≠ l then some (l.drop directory.length) else none

/-- All that is below a directory, at its location as seen from there, in the order of a walk. -/
def below (t : FileTree) (directory : Location) : List (Location × Entry) :=
  t.entries.toList.filterMap fun e => (seenFrom? directory e.1).map (·, e.2)

theorem seenFrom?_eq_some_iff {directory k l : Location} :
    seenFrom? directory k = some l ↔ l ≠ [] ∧ k = directory ++ l := by
  unfold seenFrom?
  constructor
  · intro h
    split at h
    · next hp =>
      obtain ⟨rest, rfl⟩ := List.isPrefixOf_iff_prefix.1 hp.1
      obtain rfl : rest = l := by simpa using h
      exact ⟨fun hnil => hp.2 (by simp [hnil]), rfl⟩
    · cases h
  · rintro ⟨hne, rfl⟩
    simp [hne]

theorem entry?_of_ne_nil {t : FileTree} {l : Location} (h : l ≠ []) :
    t.entry? l = t.entries.get? l := by
  cases l with
  | nil => exact absurd rfl h
  | cons name rest => rfl

/-- Below a directory is what the tree has at longer locations. -/
theorem mem_below {t : FileTree} {directory l : Location} {e : Entry} :
    (l, e) ∈ t.below directory ↔ l ≠ [] ∧ t.entry? (directory ++ l) = some e := by
  unfold below
  rw [List.mem_filterMap]
  constructor
  · rintro ⟨⟨k, e'⟩, hk, hs⟩
    obtain ⟨l', hl', heq⟩ := Option.map_eq_some_iff.1 hs
    obtain ⟨rfl, rfl⟩ := Prod.mk.inj heq
    obtain ⟨hne, rfl⟩ := seenFrom?_eq_some_iff.1 hl'
    refine ⟨hne, ?_⟩
    rw [entry?_of_ne_nil (List.append_ne_nil_of_right_ne_nil _ hne)]
    exact SortedMap.get?_eq_some_iff.2 hk
  · rintro ⟨hne, he⟩
    rw [entry?_of_ne_nil (List.append_ne_nil_of_right_ne_nil _ hne)] at he
    refine ⟨(directory ++ l, e), SortedMap.get?_eq_some_iff.1 he, ?_⟩
    rw [seenFrom?_eq_some_iff.2 ⟨hne, rfl⟩]
    rfl

/-- The entries of a directory, by name. -/
def children (t : FileTree) (directory : Location) : List (String × Entry) :=
  (t.below directory).filterMap fun e => if let [name] := e.1 then some (name, e.2) else none

/-- The directories that lead to a location, the outermost first. -/
def ancestors (l : Location) : List Location :=
  (List.range l.length).filterMap fun n => if n = 0 then none else some (l.take n)

/-- The tree with an entry at a location, over the one that was there. The top stays a
directory. -/
def set (t : FileTree) (l : Location) (e : Entry) : FileTree :=
  if l = [] then t else ⟨t.entries.insert l e⟩

theorem entries_set {t : FileTree} {l : Location} (h : l ≠ []) (e : Entry) :
    (t.set l e).entries = t.entries.insert l e := by
  rw [set, if_neg h]

/-- The tree with a directory at a location where there was nothing. -/
def ensureDirectory (t : FileTree) (l : Location) : FileTree :=
  if (t.entry? l).isSome then t else t.set l .directory

/-- The tree with an entry at a location and directories above it. -/
def put (t : FileTree) (l : Location) (e : Entry) : FileTree :=
  ((ancestors l).foldl ensureDirectory t).set l e

/-- The tree without a location and all that is below it. -/
def prune (t : FileTree) (l : Location) : FileTree :=
  ⟨t.entries.filterKeys fun k => !l.isPrefixOf k⟩

/-- What is below a directory, as a tree of its own. -/
def subtree (t : FileTree) (directory : Location) : FileTree :=
  ⟨.ofList (t.below directory)⟩

/-- The tree in which a directory has exactly the content of another tree. -/
def graft (t : FileTree) (l : Location) (content : FileTree) : FileTree :=
  content.entries.toList.foldl (fun t e => t.set (l ++ e.1) e.2) ((t.prune l).put l .directory)

/-- A tree as the only content of the top. -/
def mounted (name : String) (content : FileTree) : FileTree :=
  empty.graft [name] content

end FileTree

end AbiGate
