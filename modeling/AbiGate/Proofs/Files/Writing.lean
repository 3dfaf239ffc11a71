/-
# Written trees are well-formed

Whatever entries are made in a tree, and wherever their paths and its links lead, the tree stays
well-formed and its directories stay directories. So every tree that is given as a list of entries
is well-formed.

Key definitions: `FileTree.Grown`.
Key theorems: `FileTree.WellFormed.set`, `FileTree.grown_makeWay`, `FileTree.grown_writeFile`,
`FileTree.grown_write`, `FileTree.WellFormed.writeAll`, `FileTree.WellFormed.refill`,
`FileTree.WellFormed.subtree`, `FileTree.wellFormed_ofJson`.
-/
import AbiGate.Document.Files
import AbiGate.Proofs.Files.WellFormed
import AbiGate.Proofs.SortedMap

namespace AbiGate

namespace FileTree

variable {t t' t'' : FileTree}

/-! ### One entry -/

theorem entry?_set {l : Location} (hl : l ≠ []) (e : Entry) (k : Location) :
    entry? (t.set l e) k = if k = l then some e else t.entry? k := by
  cases k with
  | nil => rw [if_neg (Ne.symm hl), entry?, entry?]
  | cons name rest =>
    have hne : name :: rest ≠ [] := List.cons_ne_nil name rest
    rw [entry?_of_ne_nil hne, entry?_of_ne_nil hne, entries_set hl, SortedMap.get?_insert]

theorem isDirectory_set {l directory : Location} (hl : l ≠ []) {e : Entry}
    (hkeep : t.isDirectory l = true → e = .directory) (h : t.isDirectory directory = true) :
    (t.set l e).isDirectory directory = true := by
  rw [isDirectory, entry?_set hl]
  by_cases hsame : directory = l
  · rw [if_pos hsame, hkeep (hsame ▸ h)]
    rfl
  · rw [if_neg hsame]
    exact h

/-- A tree stays well-formed with an entry that has a name and is in a directory, if it is not put
in a directory's place. -/
theorem WellFormed.set (h : t.WellFormed) {directory : Location} {name : String}
    (hname : IsEntryName name) (hdirectory : t.isDirectory directory = true) {e : Entry}
    (hkeep : t.isDirectory (directory ++ [name]) = true → e = .directory) :
    (t.set (directory ++ [name]) e).WellFormed := by
  have hne : directory ++ [name] ≠ [] := List.concat_ne_nil _ _
  rintro ⟨k, e'⟩ hmem
  have hget := SortedMap.get?_eq_some_iff.2 hmem
  rw [entries_set hne, SortedMap.get?_insert] at hget
  by_cases hk : k = directory ++ [name]
  · subst hk
    refine ⟨hne, ?_, ?_⟩
    · rw [List.forall_mem_append, List.forall_mem_singleton]
      exact ⟨(h.of_entry? (of_decide_eq_true hdirectory)).1, hname⟩
    · rw [List.dropLast_concat]
      exact isDirectory_set hne hkeep hdirectory
  · rw [if_neg hk] at hget
    obtain ⟨hknil, hnames, hplaced⟩ := h (k, e') (SortedMap.get?_eq_some_iff.1 hget)
    exact ⟨hknil, hnames, isDirectory_set hne hkeep hplaced⟩

/-- A tree is well-formed, and what is a directory in another one is one in it. -/
structure Grown (t t' : FileTree) : Prop where
  wellFormed : t'.WellFormed
  isDirectory : ∀ directory, t.isDirectory directory = true → t'.isDirectory directory = true

theorem Grown.refl (h : t.WellFormed) : t.Grown t :=
  ⟨h, fun _ hdirectory => hdirectory⟩

theorem Grown.trans (h : t.Grown t') (h' : t'.Grown t'') : t.Grown t'' :=
  ⟨h'.wellFormed, fun directory hdirectory => h'.isDirectory _ (h.isDirectory directory hdirectory)⟩

theorem WellFormed.grown_set (h : t.WellFormed) {directory : Location} {name : String}
    (hname : IsEntryName name) (hdirectory : t.isDirectory directory = true) {e : Entry}
    (hkeep : t.isDirectory (directory ++ [name]) = true → e = .directory) :
    t.Grown (t.set (directory ++ [name]) e) :=
  ⟨h.set hname hdirectory hkeep, fun _ => isDirectory_set (List.concat_ne_nil _ _) hkeep⟩

/-! ### The way to an entry -/

theorem isEntryName_of_piece {piece : String} (hpiece : Path.IsPiece piece)
    (hempty : ¬(piece = "" ∨ piece = ".")) (hdots : piece ≠ "..")
    (hshort : ¬piece.utf8ByteSize > maxName) : IsEntryName piece := by
  rw [not_or] at hempty
  refine ⟨?_, hpiece⟩
  simp only [isName, ne_eq, Bool.and_eq_true, decide_eq_true_eq]
  exact ⟨⟨hempty, hdots⟩, Nat.not_lt.1 hshort⟩

theorem WellFormed.isDirectory_dropLast (h : t.WellFormed) {l : Location}
    (hl : t.isDirectory l = true) : t.isDirectory l.dropLast = true := by
  by_cases hnil : l = []
  · rw [hnil]
    rfl
  · exact (h.of_entry? (of_decide_eq_true hl)).2 hnil

/-- The induction is on the pieces, from any tree and directory that those before led to. -/
theorem grown_makeWay {pieces : List String} (hpieces : ∀ piece ∈ pieces, Path.IsPiece piece)
    {start l : Location} (hwf : t.WellFormed) (hstart : t.isDirectory start = true)
    (h : t.makeWay start pieces = .ok (t', l)) : t.Grown t' ∧ t'.isDirectory l = true := by
  induction pieces generalizing t start with
  | nil =>
    cases h
    exact ⟨.refl hwf, hstart⟩
  | cons piece rest ih =>
    obtain ⟨hpiece, hrest⟩ := List.forall_mem_cons.1 hpieces
    rw [makeWay] at h
    split at h
    · exact ih hrest hwf hstart h
    next hempty =>
    split at h
    · exact ih hrest hwf (hwf.isDirectory_dropLast hstart) h
    next hdots =>
    split at h
    · cases h
    next hshort =>
    have hname := isEntryName_of_piece hpiece hempty hdots hshort
    split at h
    · next hnone =>
      have hgrown : t.Grown (t.set (start ++ [piece]) .directory) :=
        hwf.grown_set hname hstart fun _ => rfl
      have hmade : (t.set (start ++ [piece]) .directory).isDirectory (start ++ [piece]) = true := by
        rw [isDirectory, entry?_set (List.concat_ne_nil _ _), if_pos rfl]
        rfl
      obtain ⟨hmore, hend⟩ := ih hrest hgrown.wellFormed hmade h
      exact ⟨hgrown.trans hmore, hend⟩
    · next hentry => exact ih hrest hwf (by simp [isDirectory, hentry]) h
    · cases h
    · split at h
      · cases h
      · split at h
        · next hreached => exact ih hrest hwf hreached h
        · cases h

/-! ### The entry -/

theorem isPiece_getLast?_pieces (p : Path) : Path.IsPiece (p.pieces.getLast?.getD "") := by
  cases hlast : p.pieces.getLast? with
  | none => exact absurd (List.getLast?_eq_none_iff.1 hlast) p.pieces_ne_nil
  | some piece => exact Path.isPiece_of_mem_pieces (List.mem_of_getLast? hlast)

/-- The induction is on the links, from any directory and name that one of them points to. -/
theorem grown_writeFile {content : Text.Octets} {links : Nat} {directory : Location}
    {name : String} (hname : Path.IsPiece name) (hwf : t.WellFormed)
    (hdirectory : t.isDirectory directory = true)
    (h : t.writeFile content links directory name = .ok t') : t.Grown t' := by
  fun_induction writeFile t content links directory name with
  | case1 => cases h
  | case2 => cases h
  | case3 => cases h
  | case4 => cases h
  | case5 directory name hisname target links hentry pieces l hfollow hl ih =>
    exact ih (isPiece_getLast?_pieces target) hl h
  | case6 => cases h
  | case7 links directory name hisname hother =>
    cases h
    refine hwf.grown_set ⟨by simpa using hisname, hname⟩ hdirectory fun hplace => ?_
    exact absurd (of_decide_eq_true hplace) hother

theorem grown_writeEntry {e : Entry} {directory : Location} {name : String}
    (hname : Path.IsPiece name) (hwf : t.WellFormed) (hdirectory : t.isDirectory directory = true)
    (h : t.writeEntry directory name e = .ok t') : t.Grown t' := by
  have hfree : ∀ {e : Entry}, (if isName name ∧ (t.entry? (directory ++ [name])).isNone then
      (.ok (t.set (directory ++ [name]) e) : Except FileFault FileTree)
      else .error .isADirectory) = .ok t' → t.Grown t' := by
    intro e h
    split at h
    · next hnone =>
      cases h
      refine hwf.grown_set ⟨hnone.1, hname⟩ hdirectory fun hplace => ?_
      rw [of_decide_eq_true hplace] at hnone
      cases hnone.2
    · cases h
  cases e with
  | file content => exact grown_writeFile hname hwf hdirectory h
  | link target => exact hfree h
  | directory => exact hfree h

theorem grown_tryWrite {here : Location} {p : Path} {e : Entry} (hwf : t.WellFormed)
    (hhere : t.isDirectory here = true) (h : t.tryWrite here p e = .ok t') : t.Grown t' := by
  have hstart : t.isDirectory (startOfTarget here p) = true := by
    unfold startOfTarget
    split
    · rfl
    · exact hhere
  have hpieces : ∀ piece ∈ p.pieces, Path.IsPiece piece := fun _ => Path.isPiece_of_mem_pieces
  have hway : ∀ piece ∈ p.pieces.dropLast, Path.IsPiece piece := fun piece hpiece =>
    hpieces piece (List.dropLast_subset _ hpiece)
  unfold tryWrite at h
  split at h
  · rcases hmade : t.makeWay (startOfTarget here p) p.pieces with fault | ⟨made, directory⟩
    · simp only [hmade] at h
      cases h
    · simp only [hmade] at h
      cases h
      exact (grown_makeWay hpieces hwf hstart hmade).1
  · rcases hmade : t.makeWay (startOfTarget here p) p.pieces.dropLast with
      fault | ⟨made, directory⟩
    · simp only [hmade] at h
      cases h
    · simp only [hmade] at h
      obtain ⟨hgrown, hdirectory⟩ := grown_makeWay hway hwf hstart hmade
      exact hgrown.trans
        (grown_writeEntry (isPiece_getLast?_pieces p) hgrown.wellFormed hdirectory h)

/-- **A tree in which an entry is made stays well-formed.** -/
theorem grown_write {here : Location} (hwf : t.WellFormed) (hhere : t.isDirectory here = true)
    (p : Path) (e : Entry) : t.Grown (t.write here p e) := by
  unfold write
  cases h : t.tryWrite here p e with
  | error fault => exact .refl hwf
  | ok t' => exact grown_tryWrite hwf hhere h

theorem grown_foldl_write {here : Location} (entries : List (Path × Entry)) (hwf : t.WellFormed)
    (hhere : t.isDirectory here = true) :
    t.Grown (entries.foldl (fun t e => t.write here e.1 e.2) t) := by
  induction entries generalizing t with
  | nil => exact .refl hwf
  | cons e rest ih =>
    have hgrown := grown_write hwf hhere e.1 e.2
    exact hgrown.trans (ih hgrown.wellFormed (hgrown.isDirectory here hhere))

/-! ### What a directory holds -/

/-- What is not at or below the location stays. -/
theorem entry?_prune {l k : Location} (h : l.isPrefixOf k = false) :
    entry? (t.prune l) k = t.entry? k := by
  by_cases hk : k = []
  · rw [hk]
    rfl
  · rw [entry?_of_ne_nil hk, entry?_of_ne_nil hk]
    refine Option.ext fun e => ?_
    rw [SortedMap.get?_eq_some_iff, SortedMap.get?_eq_some_iff, prune, SortedMap.filterKeys,
      List.mem_filter]
    simp [h]

theorem WellFormed.prune (h : t.WellFormed) (l : Location) : (t.prune l).WellFormed := by
  rintro ⟨k, e⟩ hmem
  obtain ⟨hk, hkeep⟩ := List.mem_filter.1 hmem
  obtain ⟨hne, hnames, hplaced⟩ := h (k, e) hk
  refine ⟨hne, hnames, ?_⟩
  have hoff : l.isPrefixOf k.dropLast = false := by
    rw [← Bool.not_eq_true, List.isPrefixOf_iff_prefix]
    intro habove
    have hbelow := List.isPrefixOf_iff_prefix.2 (habove.trans (List.dropLast_prefix k))
    simp [hbelow] at hkeep
  rw [isDirectory, entry?_prune hoff]
  exact hplaced

theorem foldl_ensureDirectory_eq {directories : List Location}
    (h : ∀ directory ∈ directories, t.isDirectory directory = true) :
    directories.foldl ensureDirectory t = t := by
  induction directories with
  | nil => rfl
  | cons directory rest ih =>
    obtain ⟨hfirst, hrest⟩ := List.forall_mem_cons.1 h
    have hentry : t.entry? directory = some .directory := of_decide_eq_true hfirst
    rw [List.foldl_cons, ensureDirectory, hentry]
    exact ih hrest

theorem exists_append_of_mem_ancestors {directory l : Location} (h : directory ∈ ancestors l) :
    ∃ rest, rest ≠ [] ∧ l = directory ++ rest := by
  unfold ancestors at h
  obtain ⟨n, hn, heq⟩ := List.mem_filterMap.1 h
  rw [List.mem_range] at hn
  split at heq
  · cases heq
  · obtain rfl := Option.some.inj heq
    refine ⟨l.drop n, ?_, (List.take_append_drop n l).symm⟩
    rw [Ne, List.drop_eq_nil_iff]
    omega

/-- What leads to a directory are directories. -/
theorem WellFormed.isDirectory_ancestors (h : t.WellFormed) {directory : Location} {name : String}
    (hdirectory : t.isDirectory directory = true) :
    ∀ above ∈ ancestors (directory ++ [name]), t.isDirectory above = true := by
  intro above habove
  obtain ⟨rest, hne, hrest⟩ := exists_append_of_mem_ancestors habove
  obtain ⟨before, last, rfl⟩ := (List.eq_nil_or_concat' rest).resolve_left hne
  rw [← List.append_assoc] at hrest
  obtain ⟨hdir, -⟩ := List.append_inj' hrest rfl
  by_cases hbefore : before = []
  · rwa [hdir, hbefore, List.append_nil] at hdirectory
  · rw [hdir] at hdirectory
    exact h.isDirectory_of_append hbefore (of_decide_eq_true hdirectory)

/-- A directory is made where there may be one. -/
theorem WellFormed.put_directory (h : t.WellFormed) {l : Location}
    (hnames : ∀ name ∈ l, IsEntryName name) (hplaced : t.isDirectory l.dropLast = true) :
    (t.put l .directory).WellFormed ∧ (t.put l .directory).isDirectory l = true := by
  rcases List.eq_nil_or_concat' l with rfl | ⟨directory, name, rfl⟩
  · exact ⟨h, rfl⟩
  · rw [List.dropLast_concat] at hplaced
    rw [put, foldl_ensureDirectory_eq (h.isDirectory_ancestors hplaced)]
    refine ⟨h.set (hnames name (by simp)) hplaced fun _ => rfl, ?_⟩
    rw [isDirectory, entry?_set (List.concat_ne_nil _ _), if_pos rfl]
    rfl

/-- **A tree stays well-formed when a directory is filled with a list of entries.** -/
theorem WellFormed.writeAll (h : t.WellFormed) {l : Location}
    (hnames : ∀ name ∈ l, IsEntryName name) (hplaced : t.isDirectory l.dropLast = true)
    (entries : List (Path × Entry)) : (t.writeAll l entries).WellFormed := by
  obtain ⟨hput, hmade⟩ := h.put_directory hnames hplaced
  exact (grown_foldl_write entries hput hmade).wellFormed

/-- What a directory holds can be replaced. -/
theorem WellFormed.refill (h : t.WellFormed) {l : Location} (hl : t.isDirectory l = true)
    (entries : List (Path × Entry)) : ((t.prune l).writeAll l entries).WellFormed := by
  have hplaced := (h.of_entry? (of_decide_eq_true hl))
  refine (h.prune l).writeAll hplaced.1 ?_ entries
  by_cases hnil : l = []
  · rw [hnil]
    rfl
  · have hoff : l.isPrefixOf l.dropLast = false := by
      rw [← Bool.not_eq_true, List.isPrefixOf_iff_prefix]
      intro habove
      have hlength := habove.length_le
      rw [List.length_dropLast] at hlength
      have hpos := List.length_pos_iff.2 hnil
      omega
    rw [isDirectory, entry?_prune hoff]
    exact hplaced.2 hnil

/-! ### A tree below a directory -/

/-- What a subtree has is what the tree has below the directory. -/
theorem get?_subtree {directory l : Location} {e : Entry} :
    (t.subtree directory).entries.get? l = some e ↔
      l ≠ [] ∧ t.entry? (directory ++ l) = some e := by
  have hsound : ∀ {e}, (t.subtree directory).entries.get? l = some e →
      l ≠ [] ∧ t.entry? (directory ++ l) = some e := fun h =>
    mem_below.1 (SortedMap.mem_of_get?_ofList h)
  refine ⟨hsound, fun h => ?_⟩
  have hkey : l ∈ (t.below directory).map (·.1) := List.mem_map_of_mem (mem_below.2 h)
  obtain ⟨e', he'⟩ := Option.isSome_iff_exists.1 (SortedMap.isSome_get?_ofList hkey)
  have hsome : (t.subtree directory).entries.get? l = some e' := he'
  rw [hsome, ← h.2, (hsound hsome).2]

theorem WellFormed.subtree (h : t.WellFormed) (directory : Location) :
    (t.subtree directory).WellFormed := by
  rintro ⟨l, e⟩ he
  obtain ⟨hne, hentry⟩ := get?_subtree.1 (SortedMap.get?_eq_some_iff.2 he)
  refine ⟨hne, fun name hname => (h.of_entry? hentry).1 name (List.mem_append_right _ hname), ?_⟩
  have hplaced := (h.of_entry? hentry).2 (List.append_ne_nil_of_right_ne_nil _ hne)
  rw [List.dropLast_append_of_ne_nil hne] at hplaced
  by_cases htop : l.dropLast = []
  · rw [htop]
    rfl
  · rw [isDirectory, entry?_of_ne_nil htop, get?_subtree.2 ⟨htop, of_decide_eq_true hplaced⟩]
    rfl

/-- **Every tree that is given as a list of entries is well-formed.** -/
theorem wellFormed_ofJson (j : Json) : (ofJson j).WellFormed := by
  have hempty : empty.WellFormed := by
    decide
  have hname : IsEntryName "tree" := by
    decide
  exact (hempty.writeAll (List.forall_mem_singleton.2 hname) rfl (Entry.listOfJson j)).subtree _

end FileTree

end AbiGate
