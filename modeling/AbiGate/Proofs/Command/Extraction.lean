/-
# What a check extracts

On a machine, the directory of a path is a root: its files are those that the machine's paths lead
to, and a path that is too long is refused (`Machine.sourceRoot`). If the tools that inspect
contracts bring up no tree, then a check extracts what the tree holds when the extraction starts: it
asks for each directory and each file at its turn, and comes to what `extraction` says of that root
and of the listings that the tools give. So all that is proved about extractions holds of what a
check compares.

Key definitions: `Machine.sourceRoot`, `Machine.Inspectable`, `Machine.knownCollaborators`,
`Machine.checkKnown`.
Key theorems: `Machine.serves_files`, `Machine.outcome_extractLive`, `Machine.outcome_perform`,
`Machine.outcome_check`, `Machine.inspectable_ofJson`.
-/
import AbiGate.Command.Check
import AbiGate.Document.Machine
import AbiGate.Proofs.Collection.Relating
import AbiGate.Proofs.Command.Milestones
import AbiGate.Proofs.Extraction.Live
import AbiGate.Proofs.Files.Following
import AbiGate.Proofs.Files.Writing

namespace AbiGate

namespace Machine

variable {k : Machine} {s : ExtractionSettings} {path : Path}

/-! ### Files -/

/-- The directory of a path as a root: the way to it starts where a check looks for the contracts
directory, and only a path that is no path is refused. -/
def sourceRoot (k : Machine) (s : ExtractionSettings) (path : Path) : SourceRoot where
  tree := k.disk
  location := k.startOf k.home (path.join s.contractsDir)
  way := path
  path := path
  refusal? := FileTree.pathFault?

/-- The machine is as it was, but for the record of runs. -/
def Unchanged (k k' : Machine) : Prop :=
  ∃ calls, k' = { k with calls }

theorem Unchanged.refl (k : Machine) : k.Unchanged k :=
  ⟨k.calls, rfl⟩

theorem startOf_eq_of_head? {p q : Path} (hpieces : q.pieces.head? = p.pieces.head?)
    (habsolute : q.isAbsolute = p.isAbsolute) (here : Location) :
    k.startOf here q = k.startOf here p := by
  unfold startOf
  rw [hpieces, habsolute]

theorem offer_sourceRoot {α : Type} (p : Path) (a : α) :
    (k.sourceRoot s path).offer p a =
      FileFault.guard (FileTree.pathFault? p) a := rfl

/-- The path of an entry below the contracts directory leads there, unless it is refused. -/
theorem resolve_pathAt (hwf : k.disk.WellFormed) {directory names : Location} {e : Entry}
    (hdirectory : (k.sourceRoot s path).contractsLocation? s = some directory)
    (hentry : k.disk.entry? (directory ++ names) = some e) (he : ∀ target, e ≠ .link target) :
    let p := (k.sourceRoot s path).pathAt s names
    k.disk.resolve (k.startOf k.home p) p =
      (k.sourceRoot s path).offer p (directory ++ names) := by
  intro p
  have hresolve := SourceRoot.contractsLocation?_eq_some_iff.1 hdirectory
  simp only [sourceRoot] at hresolve
  have hfound := (FileTree.resolveDirectory_eq_ok_iff.1 hresolve).1
  obtain ⟨hfault, htext⟩ := FileTree.pathFault?_of_resolve hfound
  have hnames := hwf.isPiece_of_append hentry
  have hstart : k.startOf k.home p = k.startOf k.home (path.join s.contractsDir) :=
    startOf_eq_of_head? (Path.head?_pieces_foldl_child htext hnames)
      (Path.isAbsolute_foldl_child _ fun name hname => (hnames name hname).1) k.home
  rw [hstart, offer_sourceRoot]
  by_cases hnil : names = []
  · subst hnil
    have hp : FileTree.pathFault? p = none := hfault
    rw [List.append_nil, hp]
    exact hfound
  · exact FileTree.resolve_below hwf hresolve hnil hentry he

/-- **The machine's files are those of a root,** as long as only the record of runs changes. -/
theorem serves_files (hwf : k.disk.WellFormed) (s : ExtractionSettings) (path : Path) :
    files.Serves s (k.sourceRoot s path) k.Unchanged where
  isDirectory := by
    rintro _ ⟨calls, rfl⟩
    refine Prod.ext ?_ rfl
    show (k.directoryAt (path.join s.contractsDir)).isOk =
      (k.directoryAt (path.join s.contractsDir)).toOption.isSome
    cases k.directoryAt (path.join s.contractsDir) <;> rfl
  list := by
    rintro _ directory names ⟨calls, rfl⟩ hdirectory hplace
    have hentry : k.disk.entry? (directory ++ names) = some .directory := of_decide_eq_true hplace
    have hresolve := resolve_pathAt hwf hdirectory hentry (by simp)
    exact Prod.ext (FileTree.list_of_resolve hresolve hplace) rfl
  read := by
    rintro _ directory names octets ⟨calls, rfl⟩ hdirectory hentry
    have hresolve := resolve_pathAt hwf hdirectory hentry (by simp)
    exact Prod.ext (FileTree.read_of_resolve hresolve hentry) rfl
  deep := by
    intro directory names hdirectory hplace hdeep
    have hresolve := SourceRoot.contractsLocation?_eq_some_iff.1 hdirectory
    have htext := (FileTree.pathFault?_of_resolve
      (FileTree.resolveDirectory_eq_ok_iff.1 hresolve).1).2
    have hsize : 0 < (path.join s.contractsDir).text.utf8ByteSize := by
      rw [Nat.pos_iff_ne_zero, Ne, String.utf8ByteSize_eq_zero_iff]
      exact htext
    have hlong : (path.join s.contractsDir).text.utf8ByteSize + names.length ≤
        ((k.sourceRoot s path).pathAt s names).text.utf8ByteSize :=
      Path.add_length_le_utf8ByteSize _ (hwf.isPiece_of_append (of_decide_eq_true hplace))
    exact FileTree.pathFault?_of_long (by omega)

/-! ### Runs of tools -/

/-- What holds of a machine throughout a check: its disk is a tree, and no rule for a command that
inspects a contract brings up a tree. -/
structure Inspectable (forge : Forge) (k : Machine) : Prop where
  wellFormed : k.disk.WellFormed
  quiet : ∀ rule ∈ k.rules, ∀ contract : Path,
    rule.command = commandLine forge.program ["inspect", contract.text, "abi"] → rule.tree = none

theorem mem_rules_of_ruleFor? {argv : List String} {rule : Rule} (h : k.ruleFor? argv = some rule) :
    rule ∈ k.rules ∧ rule.command = " ".intercalate argv := by
  have hfound := List.find?_some h
  simp only [Bool.and_eq_true, decide_eq_true_eq] at hfound
  exact ⟨List.mem_of_find?_eq_some h, hfound.1⟩

theorem wellFormed_replace (hwf : k.disk.WellFormed) {directory : Location}
    (hdirectory : k.disk.isDirectory directory = true) (argv : List String) (tree : String) :
    (k.replace argv directory tree).WellFormed := by
  have hstart : k.disk.isDirectory (k.startOf directory (targetOf argv)) = true := by
    unfold startOf
    split
    · rfl
    · exact hdirectory
  have hpieces : ∀ piece ∈ (targetOf argv).pieces, Path.IsPiece piece := fun piece =>
    Path.isPiece_of_mem_pieces
  unfold replace
  dsimp only
  split
  · next disk l hway =>
    obtain ⟨hgrown, hl⟩ := FileTree.grown_makeWay hpieces hwf hstart hway
    exact hgrown.wellFormed.refill hl _
  · exact hwf

/-- A run of a tool keeps what holds throughout. -/
theorem Inspectable.shell {forge : Forge} (h : k.Inspectable forge) (program : String)
    (directory : Path) (arguments : List String) :
    (Machine.shell program directory arguments k).2.Inspectable forge := by
  rcases shell_cases program directory arguments k with ⟨why, hstart⟩ | ⟨l, hl, hstart⟩
  · rw [hstart]
    exact h
  · rw [hstart]
    have hplace := (FileTree.resolveDirectory_eq_ok_iff.1 hl).2
    rcases react_cases (program :: arguments) l k with hreact | ⟨rule, tree, -, -, hreact⟩
    · rw [hreact]
      exact ⟨h.wellFormed, h.quiet⟩
    · rw [hreact]
      exact ⟨wellFormed_replace h.wellFormed hplace _ tree, h.quiet⟩

/-- An inspection leaves the files. -/
theorem Inspectable.unchanged_inspect {forge : Forge} (h : k.Inspectable forge)
    (root contract : Path) {k' : Machine} (hk : k.Unchanged k') :
    k.Unchanged (forge.inspect Machine.shell root contract k').2 := by
  obtain ⟨calls, rfl⟩ := hk
  rw [snd_inspect, snd_outcome_runTool]
  rcases shell_cases forge.program root ["inspect", contract.text, "abi"] { k with calls } with
    ⟨why, hstart⟩ | ⟨l, -, hstart⟩
  · rw [hstart]
    exact ⟨calls, rfl⟩
  · rw [hstart]
    rcases react_cases [forge.program, "inspect", contract.text, "abi"] l { k with calls } with
      hreact | ⟨rule, tree, hrule, htree, -⟩
    · exact ⟨_, hreact⟩
    · obtain ⟨hmem, hcommand⟩ := mem_rules_of_ruleFor? hrule
      rw [h.quiet rule hmem contract hcommand] at htree
      cases htree

/-! ### Extractions -/

/-- What the extraction at a path comes to, told from the tree that the machine has when it starts
and from what its forge lists. -/
def extractKnown (s : ExtractionSettings) (forge : Forge) (root : Path) :
    ExceptT ExtractionError (StateM Machine) Snapshot :=
  let inspect := forge.inspect shell root
  ExceptT.mk fun k =>
    let known := extraction s (k.sourceRoot s root) (Listings.of inspect k)
    (known.1, Inspector.stateAfter inspect k known.2)

theorem outcome_extractKnown (forge : Forge) (s : ExtractionSettings) (root : Path) :
    outcome (extractKnown s forge root) k =
      outcome (extract s (k.sourceRoot s root) (forge.inspect shell root)) k :=
  (outcome_extract_eq (forge.inspect shell root) k s (k.sourceRoot s root)).symm

/-- **A check extracts what the tree holds,** although it asks for each file at its turn. -/
theorem outcome_extractLive {forge : Forge} (h : k.Inspectable forge) (s : ExtractionSettings)
    (root : Path) :
    outcome (extractLive s files root (forge.inspect shell root)) k =
      outcome (extractKnown s forge root) k := by
  rw [outcome_extractKnown]
  exact outcome_extractLive_eq (serves_files h.wellFormed s root) h.wellFormed
    (fun contract _ hk => h.unchanged_inspect root contract hk) (.refl k)

/-- An extraction keeps what holds throughout. -/
theorem Inspectable.extractKnown {forge : Forge} (h : k.Inspectable forge)
    (s : ExtractionSettings) (root : Path) :
    (outcome (extractKnown s forge root) k).2.Inspectable forge := by
  have hinspect : Inspector.InStep (Same k.Unchanged) (forge.inspect Machine.shell root)
      (forge.inspect Machine.shell root) :=
    inStep_same fun contract _ hk => h.unchanged_inspect root contract hk
  have hkeeps := (inStep_extract hinspect s (k.sourceRoot s root) k k ⟨rfl, .refl k⟩).2.2
  rw [outcome_extractKnown]
  obtain ⟨calls, hk⟩ := hkeeps
  rw [hk]
  exact ⟨h.wellFormed, h.quiet⟩

/-! ### Collections -/

/-- The collaborators of a check, with extractions that are told from the tree. -/
def knownCollaborators (settings : Settings) (repository : Path) :
    Collaborators (StateM Machine) :=
  { surroundings.collaborators settings repository with
    extract := fun site =>
      ExceptT.adapt .extraction <| extractKnown settings.extraction ⟨settings.tools.forge⟩
        (Surroundings.siteRoot repository site) }

/-- The actions come to the same on a machine on which contracts can be inspected. -/
abbrev Agree (forge : Forge) {ε α : Type} (x y : ExceptT ε (StateM Machine) α) : Prop :=
  InStep (Same (Inspectable forge)) x y

section

variable (forge : Forge)

theorem agree_runTool (program : String) (directory : Path) (arguments : List String) :
    Agree forge (runTool shell program directory arguments)
      (runTool shell program directory arguments) := by
  refine .lift_same (fun k h => h.shell program directory arguments) fun answer => ?_
  split
  · exact .throw _
  · split
    · exact .pure _
    · exact .throw _

theorem agree_act (git : Git) (arguments : List String) :
    Agree forge (Surroundings.usingTool (git.act shell arguments))
      (Surroundings.usingTool (git.act shell arguments)) :=
  (agree_runTool forge git.program git.repository arguments).discard.adapt _

theorem agree_currentRef (git : Git) :
    Agree forge (Surroundings.usingTool (git.currentRef shell))
      (Surroundings.usingTool (git.currentRef shell)) := by
  have hbranch := agree_runTool forge git.program git.repository ["branch", "--show-current"]
  have hcommit := agree_runTool forge git.program git.repository ["rev-parse", "HEAD"]
  refine InStep.adapt (hbranch.bind fun branch => ?_) _
  show Agree forge (ite _ _ _) (ite _ _ _)
  split
  · exact hcommit.bind fun _ => .pure _
  · exact .pure _

theorem agree_openScratch (settings : Settings) (repository : Path) :
    Agree forge (surroundings.collaborators settings repository).openScratch
      (surroundings.collaborators settings repository).openScratch := by
  refine .lift_same (fun k h => ?_) fun place => ?_
  · show (openScratch k).2.Inspectable forge
    unfold openScratch
    split
    · exact ⟨h.wellFormed, h.quiet⟩
    · exact h
  · split
    · exact .pure _
    · exact .throw _

theorem agree_extract (s : ExtractionSettings) (root : Path) :
    Agree forge (extractLive s files root (forge.inspect shell root))
      (extractKnown s forge root) := by
  rintro k _ ⟨rfl, h⟩
  rw [outcome_extractLive h]
  exact ⟨rfl, rfl, h.extractKnown s root⟩

theorem agree_compositional :
    Compositional fun α (x y : ExceptT CollectionError (StateM Machine) α) => Agree forge x y where
  pure := .pure
  throw := .throw
  bind := .bind
  thenUndo := .thenUndo

end

theorem relates_known (settings : Settings) (repository : Path) :
    Relates (fun _ x y => Agree ⟨settings.tools.forge⟩ x y)
      (surroundings.collaborators settings repository)
      (knownCollaborators settings repository) := by
  let forge : Forge := ⟨settings.tools.forge⟩
  let git : Git := ⟨settings.tools.git, repository⟩
  have hrun := agree_runTool forge
  exact {
    clean := fun site => (hrun forge.program _ ["clean"]).discard.adapt _
    compile := fun site => (hrun forge.program _ ["build"]).discard.adapt _
    extract := fun site => (agree_extract forge settings.extraction _).adapt _
    fetch := fun remote reference => agree_act forge git ["fetch", remote, reference]
    openScratch := agree_openScratch forge settings repository
    closeScratch := by
      rintro k _ ⟨rfl, h⟩
      exact ⟨rfl, rfl, h.wellFormed.prune _, h.quiet⟩
    addWorktree := fun revision place =>
      agree_act forge git ["worktree", "add", "--detach", place.text, revision]
    removeWorktree := fun place =>
      agree_act forge git ["worktree", "remove", "--force", place.text]
    updateSubmodules := fun place =>
      (hrun git.program place ["submodule", "update", "--init", "--recursive"]).discard.adapt _
    isClean := ((hrun git.program repository ["status", "--porcelain"]).bind
      fun _ => .pure _).adapt _
    currentRef := agree_currentRef forge git
    checkout := fun reference => agree_act forge git ["checkout", reference] }

/-- **What a check compares is what the trees hold.** On a machine whose rules for inspections bring
up no tree, every request to the collaborators of a check comes to the same if each extraction is
told from the tree that there is when it starts. -/
theorem outcome_perform (settings : Settings) (repository : Path) (s : BaselineSettings)
    (request : Request) (h : k.Inspectable ⟨settings.tools.forge⟩) :
    outcome (request.perform (surroundings.collaborators settings repository) s) k =
      outcome (request.perform (knownCollaborators settings repository) s) k := by
  obtain ⟨hresult, hstates, -⟩ := (agree_compositional ⟨settings.tools.forge⟩).perform
    (relates_known settings repository) s request k k ⟨rfl, h⟩
  exact Prod.ext hresult hstates

/-! ### Checks -/

/-- A check with extractions that are told from the tree. -/
def checkKnown (coloured : Bool) (a : Arguments) :
    ExceptT CheckError (StateM Machine) CheckResult := do
  let settings ← ExceptT.adapt .configuration (resolveSettings surroundings a)
  let pair ← ExceptT.adapt .collection
    (collectPair (knownCollaborators settings a.repository) settings.baseline)
  return judge settings a.format coloured pair

/-- **A check tells what the trees hold.** The status and the report of a check, and the machine it
leaves, are those of a check that knows each tree when it starts to extract from it, if the machine
is one on which contracts can be inspected with the forge that the settings name. -/
theorem outcome_check (coloured : Bool) (a : Arguments)
    (h : ∀ settings, (outcome (resolveSettings surroundings a) k).1 = .ok settings →
      k.Inspectable ⟨settings.tools.forge⟩) :
    outcome (check surroundings coloured a) k = outcome (checkKnown coloured a) k := by
  have hkept := snd_resolveSettings a k
  rcases hsettings : outcome (ExceptT.adapt CheckError.configuration
    (resolveSettings surroundings a)) k with ⟨e | settings, k'⟩
  · rw [check, checkKnown, outcome_bind_of_error hsettings, outcome_bind_of_error hsettings]
  · have hresolved := outcome_eq_ok_of_adapt hsettings
    rw [hresolved] at hkept
    obtain rfl : k' = k := hkept
    have hpair := ((agree_compositional ⟨settings.tools.forge⟩).collectPair
      (relates_known settings a.repository) settings.baseline).adapt CheckError.collection
    have hcheck := hpair.bind fun pair => .pure (judge settings a.format coloured pair)
    obtain ⟨hresult, hstates, -⟩ := hcheck k' k' ⟨rfl, h settings (congrArg Prod.fst hresolved)⟩
    rw [check, checkKnown, outcome_bind_of_ok hsettings, outcome_bind_of_ok hsettings]
    exact Prod.ext hresult hstates

/-! ### Machines in documents -/

/-- A machine that a document describes is one on which contracts can be inspected, unless one of
its rules says otherwise. -/
theorem inspectable_ofJson {forge : Forge} {home : String} (hhome : FileTree.IsEntryName home)
    (worktree : String) (j : Json)
    (hquiet : ∀ rule ∈ (ofJson home worktree j).rules, ∀ contract : Path,
      rule.command = commandLine forge.program ["inspect", contract.text, "abi"] →
        rule.tree = none) :
    (ofJson home worktree j).Inspectable forge where
  wellFormed := by
    have hempty : FileTree.empty.WellFormed := by
      decide
    exact hempty.writeAll (List.forall_mem_singleton.2 hhome) rfl _
  quiet := hquiet

end Machine

end AbiGate
