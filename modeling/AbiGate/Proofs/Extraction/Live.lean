/-
# Extraction from files that do not change

A walk that asks for each directory and each file at its turn comes to the same as one over a tree
that is known, if what it is told is what the tree holds (`FileAccess.Serves`) and nothing that
inspects a contract changes the files. The walk that asks goes down from directory to directory, and
the other one takes what is below the contracts directory as one list. The two are in step: all that
is below a directory is, child by child, the child and what is below it.

Key definitions: `FileAccess.Serves`, `SourceRoot.sourcesUnder`.
Key theorems: `SourceRoot.sourcesUnder_eq`, `inStep_addEntries`, `outcome_extractLive_eq`.
-/
import AbiGate.Extraction.Live
import AbiGate.Proofs.Extraction.InStep

namespace AbiGate

/-! ### Sources directory by directory -/

namespace SourceRoot

variable {s : ExtractionSettings} {r : SourceRoot} {directory names : Location}

/-- The path of what is at some names below the contracts directory. -/
abbrev pathAt (s : ExtractionSettings) (r : SourceRoot) (names : Location) : Path :=
  names.foldl Path.child (r.contractsPath s)

theorem pathAt_concat (names : Location) (name : String) :
    r.pathAt s (names ++ [name]) = (r.pathAt s names).child name := by
  rw [pathAt, List.foldl_append]
  rfl

theorem sourceOf?_directory (names : Location) :
    r.sourceOf? s names .directory =
      (r.refusal? (r.pathAt s names)).map fun fault => ⟨r.pathAt s names, .unlistable fault⟩ := rfl

theorem sourceOf?_file (names : Location) (octets : Text.Octets) :
    r.sourceOf? s names (.file octets) =
      if (r.pathAt s names).extension? = some s.sourceExtension then
        some ⟨r.pathAt s names, .ofRead (r.offer (r.pathAt s names) octets)⟩
      else none := rfl

/-- The sources at and below an entry at some names below the contracts directory, in the order of a
walk. -/
def sourcesUnder (s : ExtractionSettings) (r : SourceRoot) (directory names : Location)
    (e : Entry) : List Source :=
  (r.sourceOf? s names e).toList ++
    (r.tree.below (directory ++ names)).filterMap fun e => r.sourceOf? s (names ++ e.1) e.2

theorem sources_eq (h : r.contractsLocation? s = some directory) :
    r.sources s = r.sourcesUnder s directory [] .directory := by
  unfold sources sourcesUnder
  simp only [h, List.append_nil, List.nil_append, List.filterMap_cons]
  cases r.sourceOf? s [] .directory <;> rfl

/-- The sources below a directory are, child by child, those at and below the child. -/
theorem sourcesUnder_eq (hwf : r.tree.WellFormed) (e : Entry) :
    r.sourcesUnder s directory names e = (r.sourceOf? s names e).toList ++
      (r.tree.children (directory ++ names)).flatMap fun child =>
        r.sourcesUnder s directory (names ++ [child.1]) child.2 := by
  unfold sourcesUnder
  rw [FileTree.below_eq_flatMap hwf, List.filterMap_flatMap]
  refine congrArg _ (congrArg (List.flatMap · _) (funext fun child => ?_))
  rw [FileTree.underChild, List.filterMap_cons, List.filterMap_map, List.append_assoc]
  simp only [Function.comp_def, List.append_assoc, List.singleton_append]
  cases r.sourceOf? s (names ++ [child.1]) child.2 <;> rfl

/-- Nothing is below what is no directory. -/
theorem sourcesUnder_of_not_directory (hwf : r.tree.WellFormed) {e : Entry}
    (hentry : r.tree.entry? (directory ++ names) = some e) (he : e ≠ .directory) :
    r.sourcesUnder s directory names e = (r.sourceOf? s names e).toList := by
  have hnone : ¬r.tree.isDirectory (directory ++ names) = true := by
    rw [FileTree.isDirectory, hentry]
    simpa using he
  rw [sourcesUnder, hwf.below_eq_nil hnone, List.filterMap_nil, List.append_nil]

end SourceRoot

/-! ### Files of a root -/

variable {σ : Type}

/-- In states with this property the files are those of the root, and asking for them changes
nothing. No directory can be listed that is too deep for a path. -/
structure FileAccess.Serves (files : FileAccess (StateM σ)) (s : ExtractionSettings)
    (r : SourceRoot) (holds : σ → Prop) : Prop where
  isDirectory : ∀ w, holds w →
    files.isDirectory (r.contractsPath s) w = ((r.contractsLocation? s).isSome, w)
  list : ∀ w directory names, holds w → r.contractsLocation? s = some directory →
    r.tree.isDirectory (directory ++ names) = true →
      files.list (r.pathAt s names) w =
        (r.offer (r.pathAt s names) (r.tree.children (directory ++ names)), w)
  read : ∀ w directory names octets, holds w → r.contractsLocation? s = some directory →
    r.tree.entry? (directory ++ names) = some (.file octets) →
      files.read (r.pathAt s names) w = (r.offer (r.pathAt s names) octets, w)
  deep : ∀ directory names, r.contractsLocation? s = some directory →
    r.tree.isDirectory (directory ++ names) = true → FileTree.maxPath ≤ names.length →
      r.refusal? (r.pathAt s names) ≠ none

theorem outcome_listDirectory {files : FileAccess (StateM σ)} {path : Path} {w : σ}
    {answer : Except FileFault (List (String × Entry))} (h : files.list path w = (answer, w)) :
    outcome (files.listDirectory path) w = (answer.mapError (.unlistable path), w) := by
  refine (outcome_lift_bind (files.list path) _ w).trans ?_
  rw [h]
  cases answer <;> rfl

theorem outcome_readSource_bind {files : FileAccess (StateM σ)} {path : Path} {w : σ}
    {answer : Except FileFault Text.Octets} (h : files.read path w = (answer, w)) {α : Type}
    (f : Source → ExceptT ExtractionError (StateM σ) α) :
    outcome (liftM (files.readSource path) >>= f) w =
      outcome (f { path, opened := .ofRead answer }) w := by
  have hsource : files.readSource path w = ({ path, opened := .ofRead answer }, w) := by
    show (fun v : _ × σ => (Source.mk path (.ofRead v.1), v.2)) (files.read path w) = _
    rw [h]
  refine (outcome_lift_bind (files.readSource path) f w).trans ?_
  rw [hsource]

/-! ### The walks -/

section

variable {s : ExtractionSettings} {r : SourceRoot} {holds : σ → Prop}
  {files : FileAccess (StateM σ)} {inspect : Inspector (StateM σ)}
  (hserves : files.Serves s r holds) (hwf : r.tree.WellFormed)
  (hkeeps : ∀ contract w, holds w → holds (inspect contract w).2)
  {directory : Location} (hdirectory : r.contractsLocation? s = some directory)

include hserves hwf hdirectory

/-- A directory that is listed, with what follows, is in step with the sources at and below it, if
what follows is in step with those below it. -/
theorem inStep_listDirectory {names : Location} {snapshot : Snapshot}
    (follow : List (String × Entry) → ExceptT ExtractionError (StateM σ) Snapshot)
    (hplace : r.tree.isDirectory (directory ++ names) = true)
    (hfollow : r.refusal? (r.pathAt s names) = none →
      InStep (Same holds) (follow (r.tree.children (directory ++ names)))
        (((r.tree.children (directory ++ names)).flatMap fun child =>
          r.sourcesUnder s directory (names ++ [child.1]) child.2).foldlM
            (addSource s r.path inspect) snapshot)) :
    InStep (Same holds) (files.listDirectory (r.pathAt s names) >>= follow)
      ((r.sourcesUnder s directory names .directory).foldlM (addSource s r.path inspect)
        snapshot) := by
  rintro w _ ⟨rfl, hw⟩
  have hlisted := outcome_listDirectory (hserves.list w directory names hw hdirectory hplace)
  rw [SourceRoot.sourcesUnder_eq hwf, SourceRoot.sourceOf?_directory]
  unfold SourceRoot.offer at hlisted
  cases hrefusal : r.refusal? (r.pathAt s names) with
  | none =>
    rw [hrefusal] at hlisted
    rw [outcome_bind_of_ok hlisted]
    exact hfollow hrefusal w w ⟨rfl, hw⟩
  | some fault =>
    rw [hrefusal] at hlisted
    rw [outcome_bind_of_error hlisted]
    exact ⟨rfl, rfl, hw⟩

include hkeeps

theorem inStep_addEntries {depth : Nat} {names : Location} (snapshot : Snapshot)
    (hdepth : depth + names.length = FileTree.maxPath)
    (hplace : r.tree.isDirectory (directory ++ names) = true)
    (hopen : r.refusal? (r.pathAt s names) = none) :
    InStep (Same holds)
      (addEntries s files r.path inspect depth (r.pathAt s names)
        (r.tree.children (directory ++ names)) snapshot)
      (((r.tree.children (directory ++ names)).flatMap fun child =>
        r.sourcesUnder s directory (names ++ [child.1]) child.2).foldlM
          (addSource s r.path inspect) snapshot) := by
  induction depth generalizing names snapshot with
  | zero =>
    -- so deep down no directory can be listed
    exact absurd hopen (hserves.deep directory names hdirectory hplace (by omega))
  | succ depth ih =>
    refine .foldlM_flatMap (fun child hchild snapshot => ?_) snapshot
    obtain ⟨name, e⟩ := child
    have hentry := FileTree.mem_children.1 hchild
    rw [List.append_assoc] at hentry
    cases e with
    | link target =>
      rw [SourceRoot.sourcesUnder_of_not_directory hwf hentry (by simp)]
      exact .pure snapshot
    | file octets =>
      rw [SourceRoot.sourcesUnder_of_not_directory hwf hentry (by simp),
        SourceRoot.sourceOf?_file, SourceRoot.pathAt_concat]
      by_cases hextension : ((r.pathAt s names).child name).extension? = some s.sourceExtension
      · simp only [hextension, if_true, Option.toList_some, List.foldlM_cons, List.foldlM_nil,
          bind_pure]
        rintro w _ ⟨rfl, hw⟩
        have hread := hserves.read w directory (names ++ [name]) octets hw hdirectory hentry
        rw [SourceRoot.pathAt_concat] at hread
        rw [outcome_readSource_bind hread]
        exact inStep_addSource (inStep_same hkeeps) s r.path snapshot _ w w ⟨rfl, hw⟩
      · simp only [hextension, if_false]
        exact .pure snapshot
    | directory =>
      have hbelow : r.tree.isDirectory (directory ++ (names ++ [name])) = true := by
        rw [FileTree.isDirectory, hentry]
        exact decide_eq_true rfl
      have hlength : depth + (names ++ [name]).length = FileTree.maxPath := by
        rw [List.length_append, List.length_singleton]
        omega
      have hdown := inStep_listDirectory hserves hwf hdirectory
        (fun listed => addEntries s files r.path inspect depth (r.pathAt s (names ++ [name])) listed
          snapshot) hbelow fun hopen => ih snapshot hlength hbelow hopen
      rw [SourceRoot.pathAt_concat] at hdown
      exact hdown

omit hdirectory in
/-- **A walk that asks for the files comes to what the tree comes to,** and leaves the same
state. -/
theorem outcome_extractLive_eq {w : σ} (hw : holds w) :
    outcome (extractLive s files r.path inspect) w = outcome (extract s r inspect) w := by
  have hstart : outcome (extractLive s files r.path inspect) w =
      outcome (if (r.contractsLocation? s).isSome then
        files.listDirectory (r.pathAt s []) >>= fun listed =>
          addEntries s files r.path inspect FileTree.maxPath (r.pathAt s []) listed .empty
        else pure .empty) w := by
    refine (outcome_lift_bind (files.isDirectory (r.contractsPath s)) _ w).trans ?_
    rw [hserves.isDirectory w hw]
    rfl
  rw [hstart]
  cases hdirectory : r.contractsLocation? s with
  | none =>
    have hsources : r.sources s = [] := by
      unfold SourceRoot.sources
      rw [hdirectory]
    rw [extract, hsources]
    rfl
  | some directory =>
    have hplace : r.tree.isDirectory (directory ++ []) = true := by
      rw [List.append_nil]
      exact SourceRoot.isDirectory_of_contractsLocation? hdirectory
    have hwalk := inStep_listDirectory hserves hwf hdirectory
      (fun listed =>
        addEntries s files r.path inspect FileTree.maxPath (r.pathAt s []) listed .empty)
      hplace fun hopen => inStep_addEntries hserves hwf hkeeps hdirectory .empty rfl hplace hopen
    rw [← SourceRoot.sources_eq hdirectory] at hwalk
    obtain ⟨hresult, hstates, -⟩ := hwalk w w ⟨rfl, hw⟩
    exact Prod.ext hresult hstates

end

end AbiGate
