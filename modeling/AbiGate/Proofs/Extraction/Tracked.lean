/-
# Which contracts a tree tracks

A source tree declares a contract by a file: below the contracts directory, with the source
extension, and with a line that starts, blanks aside, with the version marker. `Declares` says
this of the tree itself. If every source that a walk comes to can be opened, those that are
recognized as tracked are exactly these files.

Key definitions: `Declares`, `SourceRoot.Open`.
Key theorems: `VersionMarker.scan_eq_ok_none_iff`, `Source.recognize_eq_ok_iff`, `recognized_iff`.
-/
import AbiGate.Proofs.Extraction.WalkOrder

namespace AbiGate

/-- A file with this text, at this path as seen from the root, declares a contract. -/
def Declares (s : ExtractionSettings) (r : SourceRoot) (path : Path) (text : String) : Prop :=
  ∃ directory l content,
    r.contractsLocation? s = some directory ∧ l ≠ [] ∧
    r.tree.entry? (directory ++ l) = some (.file content) ∧
    (l.foldl Path.child (r.contractsPath s)).extension? = some s.sourceExtension ∧
    (l.foldl Path.child (r.contractsPath s)).relativeTo r.path = path ∧
    Text.Utf8.decode? content = some text ∧
    ∃ line ∈ Text.cutLines text.toList, s.marker.toList <+: Text.trim line

/-! ### Markers -/

namespace VersionMarker

theorem literal?_eq_none_iff {start line : List Char} :
    literal? start line = none ↔ ¬start <+: Text.trim line := by
  unfold literal?
  rw [Option.map_eq_none_iff, ← Option.not_isSome_iff_eq_none,
    List.isSome_isPrefixOf?_eq_isPrefixOf, List.isPrefixOf_iff_prefix]

theorem find?_eq_none_iff {start : List Char} : ∀ {number : Nat} {lines : List (List Char)},
    find? start number lines = none ↔ ∀ line ∈ lines, ¬start <+: Text.trim line
  | _, [] => by simp [find?]
  | number, line :: rest => by
    unfold find?
    cases hl : literal? start line with
    | some literal =>
      simp only [reduceCtorEq, List.mem_cons, forall_eq_or_imp, false_iff, not_and]
      intro hno
      rw [literal?_eq_none_iff.2 hno] at hl
      cases hl
    | none =>
      simp only [List.mem_cons, forall_eq_or_imp]
      rw [find?_eq_none_iff]
      exact ⟨fun h => ⟨literal?_eq_none_iff.1 hl, h⟩, fun h => h.2⟩

/-- A source declares no version exactly if no line starts with the marker. -/
theorem scan_eq_ok_none_iff {path : Path} {start source : String} :
    scan path start source = .ok none ↔
      ∀ line ∈ Text.cutLines source.toList, ¬start.toList <+: Text.trim line := by
  rw [← @find?_eq_none_iff _ 1]
  unfold scan
  cases hf : find? start.toList 1 (Text.cutLines source.toList) with
  | none => simp
  | some found =>
    obtain ⟨line, literal⟩ := found
    cases hr : Text.readUInt64? literal <;> simp [hr]

end VersionMarker

/-! ### Sources -/

theorem Source.text_eq_ok_iff {source : Source} {text : String} :
    source.text = .ok text ↔ ∃ octets, source.opened = .content octets ∧
      Text.Utf8.decode? octets = some text := by
  unfold Source.text FileTree.textOf
  cases hopened : source.opened with
  | content octets => cases hdecode : Text.Utf8.decode? octets <;> simp [hdecode, Except.mapError]
  | unreadable fault => simp
  | unlistable fault => simp

theorem Source.recognize_eq_ok_iff {s : ExtractionSettings} {root : Path} {source : Source}
    {found : Option Tracked} :
    source.recognize s root = .ok found ↔ ∃ text version,
      source.text = .ok text ∧
      VersionMarker.scan (source.path.relativeTo root) s.marker text = .ok version ∧
      found = version.map fun v =>
        { name := (source.path.relativeTo root).stem
          path := source.path.relativeTo root
          version := v } := by
  unfold recognize
  constructor
  · intro h
    cases htext : source.text with
    | error e => simp [htext] at h
    | ok text =>
      simp only [htext] at h
      split at h
      · cases h
      · next version hs => exact ⟨text, version, rfl, hs, (Except.ok.inj h).symm⟩
  · intro h
    obtain ⟨text, version, htext, hs, rfl⟩ := h
    simp only [htext, hs]

namespace SourceRoot

variable {s : ExtractionSettings} {r : SourceRoot}

/-- Every directory can be listed, and every file with the source extension can be read. -/
def Open (s : ExtractionSettings) (r : SourceRoot) : Prop :=
  ∀ source ∈ r.sources s, ∃ octets, source.opened = .content octets

/-- A source that is opened is a file with the source extension. -/
theorem HasSource.of_content {directory names : Location} {source : Source} {octets : Text.Octets}
    (h : r.HasSource s directory names source) (hopened : source.opened = .content octets) :
    names ≠ [] ∧ r.tree.entry? (directory ++ names) = some (.file octets) ∧
      (names.foldl Path.child (r.contractsPath s)).extension? = some s.sourceExtension := by
  obtain ⟨e, hentry, hopens⟩ := h.entry
  rw [hopened, h.path_eq] at hopens
  cases hopens with
  | content hextension hopen =>
    refine ⟨?_, hentry, hextension⟩
    rintro rfl
    have hplace := isDirectory_of_contractsLocation? h.location
    rw [List.append_nil] at hentry
    rw [FileTree.isDirectory, hentry] at hplace
    simp at hplace

/-- A file with the source extension is a source. -/
theorem exists_source_of_file {directory names : Location} {octets : Text.Octets}
    (hlocation : r.contractsLocation? s = some directory)
    (hentry : r.tree.entry? (directory ++ names) = some (.file octets))
    (hextension : (names.foldl Path.child (r.contractsPath s)).extension? =
      some s.sourceExtension) :
    ∃ source ∈ r.sources s, source.path = names.foldl Path.child (r.contractsPath s) ∧
      r.Opens s source.path (.file octets) source.opened := by
  obtain ⟨opened, hopens⟩ : ∃ opened,
      r.Opens s (names.foldl Path.child (r.contractsPath s)) (.file octets) opened :=
    ⟨_, opens_file_iff.2 ⟨hextension, rfl⟩⟩
  exact ⟨⟨_, opened⟩, mem_sources.2 ⟨names, directory, hlocation, ⟨_, hentry, hopens⟩, rfl⟩, rfl,
    hopens⟩

end SourceRoot

theorem Declares.exists_source {s : ExtractionSettings} {r : SourceRoot} {path : Path}
    {text : String} (h : Declares s r path text) (hopen : r.Open s) :
    ∃ source ∈ r.sources s, source.path.relativeTo r.path = path ∧ source.text = .ok text := by
  obtain ⟨directory, l, octets, hdir, -, hentry, hext, hseen, hdec, -⟩ := h
  obtain ⟨source, hmem, hpath, hopens⟩ := SourceRoot.exists_source_of_file hdir hentry hext
  obtain ⟨octets', hopened⟩ := hopen source hmem
  rw [hopened] at hopens
  cases hopens
  exact ⟨source, hmem, by rw [hpath, hseen], Source.text_eq_ok_iff.2 ⟨octets, hopened, hdec⟩⟩

/-- **What is recognized as tracked are the files that declare a contract, with the version
that they declare.** -/
theorem recognized_iff {s : ExtractionSettings} {r : SourceRoot} (hopen : r.Open s) {t : Tracked} :
    (∃ source ∈ r.sources s, source.recognize s r.path = .ok (some t)) ↔
      ∃ text, Declares s r t.path text ∧ t.name = t.path.stem ∧
        VersionMarker.scan t.path s.marker text = .ok (some t.version) := by
  constructor
  · intro h
    obtain ⟨source, hmem, hrec⟩ := h
    obtain ⟨l, directory, hsource⟩ := SourceRoot.mem_sources.1 hmem
    obtain ⟨text, version, htext, hscan, hfound⟩ := Source.recognize_eq_ok_iff.1 hrec
    obtain ⟨octets, hopened, hdec⟩ := Source.text_eq_ok_iff.1 htext
    obtain ⟨hne, hentry, hext⟩ := hsource.of_content hopened
    obtain ⟨v, rfl, ht⟩ := Option.map_eq_some_iff.1 hfound.symm
    obtain ⟨name, path, w⟩ := t
    obtain ⟨hname, hseen, rfl⟩ := Tracked.mk.inj ht
    rw [hseen] at hscan hname
    rw [hsource.path_eq] at hseen
    refine ⟨text, ⟨directory, l, octets, hsource.location, hne, hentry, hext, hseen, hdec, ?_⟩,
      hname.symm, hscan⟩
    by_contra hno
    simp only [not_exists, not_and] at hno
    rw [VersionMarker.scan_eq_ok_none_iff.2 hno] at hscan
    cases hscan
  · intro h
    obtain ⟨text, hdecl, hname, hscan⟩ := h
    obtain ⟨source, hmem, hseen, htext⟩ := hdecl.exists_source hopen
    refine ⟨source, hmem, Source.recognize_eq_ok_iff.2 ⟨text, some t.version, htext, ?_, ?_⟩⟩
    · rw [hseen]; exact hscan
    · simp only [Option.map_some, hseen, ← hname]

theorem Declares.scan_ne {s : ExtractionSettings} {r : SourceRoot} {path : Path}
    {text : String} (h : Declares s r path text) :
    VersionMarker.scan path s.marker text ≠ .ok none := by
  obtain ⟨_, _, _, _, _, _, _, _, _, line, hline, hmarker⟩ := h
  exact fun hscan => VersionMarker.scan_eq_ok_none_iff.1 hscan line hline hmarker

end AbiGate
