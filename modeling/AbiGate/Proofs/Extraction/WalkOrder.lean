/-
# The order of the sources

The sources of a root are the files with the source extension below its contracts directory, and the
directories at or below it that cannot be listed. They are taken in the order in which one walks the
directory: at each place the entries by the octets of their names, and what is in a directory where
the directory is. So two sources are in the order of the names that lead to them, compared name by
name.

Key definitions: `SourceRoot.HasSource`, `SourceRoot.InOrder`.
Key theorems: `SourceRoot.inOrder_located`, `SourceRoot.mem_sources`.
-/
import AbiGate.Extraction.Source
import AbiGate.Proofs.Files.Below

namespace AbiGate

theorem toOption_eq_some_iff {ε α : Type} {x : Except ε α} {a : α} :
    x.toOption = some a ↔ x = .ok a := by
  cases x <;> simp [Except.toOption]

namespace SourceRoot

variable {s : ExtractionSettings} {r : SourceRoot}

theorem contractsLocation?_eq_some_iff {directory : Location} :
    r.contractsLocation? s = some directory ↔
      r.tree.resolveDirectory r.location (r.way.join s.contractsDir) = .ok directory :=
  toOption_eq_some_iff

theorem isDirectory_of_contractsLocation? {directory : Location}
    (h : r.contractsLocation? s = some directory) : r.tree.isDirectory directory = true :=
  (FileTree.resolveDirectory_eq_ok_iff.1 (contractsLocation?_eq_some_iff.1 h)).2

/-- What opening an entry at a path comes to, if it is a source: a file with the source extension is
read, and a directory is a source only if it cannot be listed. -/
inductive Opens (s : ExtractionSettings) (r : SourceRoot) (path : Path) : Entry → Opened → Prop
  | content {octets : Text.Octets} (hextension : path.extension? = some s.sourceExtension)
      (hopen : r.refusal? path = none) : Opens s r path (.file octets) (.content octets)
  | unreadable {octets : Text.Octets} {fault : FileFault}
      (hextension : path.extension? = some s.sourceExtension)
      (hrefused : r.refusal? path = some fault) : Opens s r path (.file octets) (.unreadable fault)
  | unlistable {fault : FileFault} (hrefused : r.refusal? path = some fault) :
      Opens s r path .directory (.unlistable fault)

theorem opens_file_iff {path : Path} {octets : Text.Octets} {opened : Opened} :
    r.Opens s path (.file octets) opened ↔
      path.extension? = some s.sourceExtension ∧ opened = .ofRead (r.offer path octets) := by
  unfold offer
  constructor
  · intro h
    cases h with
    | content hextension hopen => exact ⟨hextension, by rw [hopen]; rfl⟩
    | unreadable hextension hrefused => exact ⟨hextension, by rw [hrefused]; rfl⟩
  · rintro ⟨hextension, rfl⟩
    cases hrefusal : r.refusal? path with
    | none => exact .content hextension hrefusal
    | some fault => exact .unreadable hextension hrefusal

/-- The sources that are files. -/
def files (s : ExtractionSettings) (r : SourceRoot) : List Source :=
  (r.sources s).filter fun source => source.opened matches .content _ | .unreadable _

/-- From the contracts directory the names lead to an entry that is this source. -/
structure HasSource (s : ExtractionSettings) (r : SourceRoot) (directory names : Location)
    (source : Source) : Prop where
  location : r.contractsLocation? s = some directory
  entry : ∃ e, r.tree.entry? (directory ++ names) = some e ∧ r.Opens s source.path e source.opened
  path_eq : source.path = names.foldl Path.child (r.contractsPath s)

/-- These are the sources of the root, each behind the names that lead to it from the contracts
directory, in the order of the names: compared octet by octet, name by name. -/
structure InOrder (s : ExtractionSettings) (r : SourceRoot) (files : List (Location × Source)) :
    Prop where
  mem_iff : ∀ names source,
    (names, source) ∈ files ↔ ∃ directory, r.HasSource s directory names source
  increasing : files.Pairwise fun f f' => f.1.map Text.Utf8.encode < f'.1.map Text.Utf8.encode

/-- The sources with the names that lead to them. -/
def located (s : ExtractionSettings) (r : SourceRoot) : List (Location × Source) :=
  match r.contractsLocation? s with
  | some directory =>
    (([], .directory) :: r.tree.below directory).filterMap fun e =>
      (r.sourceOf? s e.1 e.2).map (e.1, ·)
  | none => []

theorem map_snd_located (s : ExtractionSettings) (r : SourceRoot) :
    (r.located s).map (·.2) = r.sources s := by
  unfold located sources
  cases r.contractsLocation? s with
  | none => rfl
  | some directory => simp only [List.map_filterMap, Option.map_map, Function.comp_def,
      Option.map_id']

theorem sourceOf?_eq_some_iff {names : Location} {e : Entry} {source : Source} :
    r.sourceOf? s names e = some source ↔ r.Opens s source.path e source.opened ∧
      source.path = names.foldl Path.child (r.contractsPath s) := by
  obtain ⟨path, opened⟩ := source
  unfold sourceOf?
  cases e with
  | link target =>
    refine ⟨fun h => (by cases h), ?_⟩
    rintro ⟨⟨⟩, -⟩
  | file octets =>
    simp only [opens_file_iff, Option.ite_none_right_eq_some, Option.some.injEq, Source.mk.injEq]
    constructor
    · rintro ⟨hextension, rfl, rfl⟩
      exact ⟨⟨hextension, rfl⟩, rfl⟩
    · rintro ⟨⟨hextension, rfl⟩, rfl⟩
      exact ⟨hextension, rfl, rfl⟩
  | directory =>
    constructor
    · intro h
      obtain ⟨fault, hrefused, h⟩ := Option.map_eq_some_iff.1 h
      obtain ⟨rfl, rfl⟩ := Source.mk.inj h
      exact ⟨.unlistable hrefused, rfl⟩
    · rintro ⟨hopens, rfl⟩
      cases hopens with
      | unlistable hrefused => exact Option.map_eq_some_iff.2 ⟨_, hrefused, rfl⟩

/-- **Sources are taken in the order of the names that lead to them.** -/
theorem inOrder_located (s : ExtractionSettings) (r : SourceRoot) : r.InOrder s (r.located s) := by
  unfold located
  cases hdirectory : r.contractsLocation? s with
  | none =>
    refine ⟨fun names source => ?_, .nil⟩
    simp only [List.not_mem_nil, false_iff]
    rintro ⟨directory, h⟩
    cases hdirectory.symm.trans h.location
  | some directory =>
    have hplace := isDirectory_of_contractsLocation? hdirectory
    constructor
    · intro names source
      rw [List.mem_filterMap]
      constructor
      · rintro ⟨⟨l, e⟩, he, hsource⟩
        obtain ⟨_, hfound, heq⟩ := Option.map_eq_some_iff.1 hsource
        obtain ⟨rfl, rfl⟩ := Prod.mk.inj heq
        obtain ⟨hopens, hpath⟩ := sourceOf?_eq_some_iff.1 hfound
        exact ⟨directory, hdirectory, ⟨e, (FileTree.mem_cons_below hplace).1 he, hopens⟩, hpath⟩
      · rintro ⟨other, h⟩
        obtain rfl := Option.some.inj (hdirectory.symm.trans h.location)
        obtain ⟨e, hentry, hopens⟩ := h.entry
        refine ⟨(names, e), (FileTree.mem_cons_below hplace).2 hentry, ?_⟩
        rw [sourceOf?_eq_some_iff.2 ⟨hopens, h.path_eq⟩]
        rfl
    · refine List.pairwise_filterMap.2 ((r.tree.pairwise_cons_below directory).imp ?_)
      intro e e' hlt f hf f' hf'
      obtain ⟨_, -, rfl⟩ := Option.map_eq_some_iff.1 hf
      obtain ⟨_, -, rfl⟩ := Option.map_eq_some_iff.1 hf'
      exact Text.Utf8.map_encode_lt_iff.2 hlt

theorem mem_located {names : Location} {source : Source} :
    (names, source) ∈ r.located s ↔ ∃ directory, r.HasSource s directory names source :=
  (r.inOrder_located s).mem_iff names source

theorem mem_sources {source : Source} :
    source ∈ r.sources s ↔ ∃ names directory, r.HasSource s directory names source := by
  simp only [← map_snd_located, List.mem_map, Prod.exists, mem_located, exists_eq_right]

end SourceRoot

end AbiGate
