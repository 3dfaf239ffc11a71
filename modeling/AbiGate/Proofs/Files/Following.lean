/-
# Following a path below a directory

A path that leads to a directory can be followed on from there, with the links that are left. In a
well-formed tree no link is left to follow on the way to an entry below a directory: the path of
the directory with the names of the entry behind it leads to that entry, whatever else is in the
tree.

Key definitions: `FileTree.textAt`.
Key theorems: `FileTree.exists_follow_append`, `FileTree.follow_append_names`,
`FileTree.resolve_below`, `FileTree.readText_below`.
-/
import AbiGate.Proofs.Files.WellFormed

namespace AbiGate

namespace FileTree

variable {t : FileTree}

/-! ### Pieces in front and behind -/

theorem walk_append (pieces behind : List String) (start : Location) :
    t.walk start (pieces ++ behind) =
      match t.walk start pieces with
      | .error e => .error e
      | .ok (.reached l) => t.walk l behind
      | .ok (.link directory target rest) => .ok (.link directory target (rest ++ behind)) := by
  induction pieces generalizing start with
  | nil => rfl
  | cons piece pieces ih =>
    rw [List.cons_append, walk, walk]
    split
    · rfl
    split
    · exact ih start
    split
    · exact ih start.dropLast
    split
    · rfl
    cases t.entry? (start ++ [piece]) with
    | none => rfl
    | some e =>
      cases e with
      | link target => rfl
      | file content => exact ih (start ++ [piece])
      | directory => exact ih (start ++ [piece])

theorem follow_of_reached {pieces : List String} {start l : Location} (links : Nat)
    (h : t.walk start pieces = .ok (.reached l)) : t.follow links start pieces = .ok l := by
  rw [follow.eq_def, h]

theorem follow_congr {pieces pieces' : List String} {start start' : Location} (links : Nat)
    (h : t.walk start pieces = t.walk start' pieces') :
    t.follow links start pieces = t.follow links start' pieces' := by
  rw [follow.eq_def, follow.eq_def, h]

/-- Where following pieces ends, one follows what is behind them with the links that are left. The
induction is on the links, with whatever pieces a link leaves to follow. -/
theorem exists_follow_append (links : Nat) (start : Location) (pieces : List String) :
    (∃ e, t.follow links start pieces = .error e ∧
      ∀ behind, t.follow links start (pieces ++ behind) = .error e) ∨
    ∃ l left, t.follow links start pieces = .ok l ∧
      ∀ behind, t.follow links start (pieces ++ behind) = t.follow left l behind := by
  induction links generalizing start pieces with
  | zero =>
    rcases hwalk : t.walk start pieces with e | l | ⟨directory, target, rest⟩
    · refine .inl ⟨e, by rw [follow.eq_def, hwalk], fun behind => ?_⟩
      rw [follow.eq_def, walk_append, hwalk]
    · refine .inr ⟨l, 0, follow_of_reached 0 hwalk, fun behind => follow_congr 0 ?_⟩
      rw [walk_append, hwalk]
    · refine .inl ⟨.tooManyLinks, by rw [follow.eq_def, hwalk], fun behind => ?_⟩
      rw [follow.eq_def, walk_append, hwalk]
  | succ links ih =>
    rcases hwalk : t.walk start pieces with e | l | ⟨directory, target, rest⟩
    · refine .inl ⟨e, by rw [follow.eq_def, hwalk], fun behind => ?_⟩
      rw [follow.eq_def, walk_append, hwalk]
    · refine .inr ⟨l, links + 1, follow_of_reached _ hwalk, fun behind => follow_congr _ ?_⟩
      rw [walk_append, hwalk]
    · have hgo : ∀ behind, t.follow (links + 1) start (pieces ++ behind) =
          t.follow links (startOfTarget directory target) ((target.pieces ++ rest) ++ behind) := by
        intro behind
        rw [follow.eq_def, walk_append, hwalk, List.append_assoc]
      have hstart := hgo []
      rw [List.append_nil, List.append_nil] at hstart
      simp only [hgo, hstart]
      exact ih _ _

/-! ### Pieces that name nothing -/

theorem walk_of_not_isNamed {piece : String} (h : ¬Path.isNamed piece = true) (start : Location)
    (rest : List String) :
    t.walk start (piece :: rest) =
      if t.isDirectory start then t.walk start rest else .error .notADirectory := by
  have hunnamed : piece = "" ∨ piece = "." := by
    by_contra hnot
    refine h ?_
    rw [Path.isNamed, Path.componentOf?, if_neg hnot]
    split <;> rfl
  rw [walk, if_pos hunnamed]
  cases t.isDirectory start <;> rfl

/-- In a directory, pieces that name nothing lead nowhere else. -/
theorem walk_dropWhile {start : Location} (h : t.isDirectory start = true) (pieces : List String) :
    t.walk start (pieces.dropWhile (!Path.isNamed ·)) = t.walk start pieces := by
  induction pieces with
  | nil => rfl
  | cons piece rest ih =>
    by_cases hpiece : Path.isNamed piece = true
    · rw [List.dropWhile_cons_of_neg (by simp [hpiece])]
    · rw [List.dropWhile_cons_of_pos (by simp [hpiece]), ih, walk_of_not_isNamed hpiece, if_pos h]

/-! ### Names below a directory -/

theorem walk_of_isName {name : String} (hname : isName name = true) {start : Location}
    (hstart : t.isDirectory start = true) (rest : List String) :
    t.walk start (name :: rest) =
      match t.entry? (start ++ [name]) with
      | none => .error .notFound
      | some (.link target) => .ok (.link start target rest)
      | some _ => t.walk (start ++ [name]) rest := by
  simp only [isName, ne_eq, Bool.and_eq_true, decide_eq_true_eq] at hname
  obtain ⟨⟨⟨hempty, hdot⟩, hdots⟩, hshort⟩ := hname
  rw [walk, hstart, if_neg (by simp), if_neg (by simp [hempty, hdot]), if_neg hdots]
  exact if_neg (Nat.not_lt.2 hshort)

/-- In a well-formed tree, the names of an entry below a directory lead to it, unless it is a
link. -/
theorem walk_names (hwf : t.WellFormed) {names : List String} {directory : Location} {e : Entry}
    (hentry : t.entry? (directory ++ names) = some e) (he : ∀ target, e ≠ .link target) :
    t.walk directory names = .ok (.reached (directory ++ names)) := by
  induction names generalizing directory with
  | nil => rw [walk, List.append_nil]
  | cons name rest ih =>
    have hdirectory := hwf.isDirectory_of_append (List.cons_ne_nil name rest) hentry
    have hname := ((hwf.of_entry? hentry).1 name (by simp)).1
    have hsplit : directory ++ name :: rest = (directory ++ [name]) ++ rest :=
      List.append_cons ..
    rw [hsplit] at hentry ⊢
    rw [walk_of_isName hname hdirectory, ← ih hentry]
    by_cases hrest : rest = []
    · rw [hrest, List.append_nil] at hentry
      rw [hentry]
      cases e with
      | link target => exact absurd rfl (he target)
      | file content => rfl
      | directory => rfl
    · have hbetween : t.entry? (directory ++ [name]) = some .directory :=
        of_decide_eq_true (hwf.isDirectory_of_append hrest hentry)
      rw [hbetween]

/-- Where pieces lead to a directory, the names of an entry below it lead on to the entry. -/
theorem follow_append_names (hwf : t.WellFormed) {links : Nat} {start directory : Location}
    {pieces names : List String} (h : t.follow links start pieces = .ok directory) {e : Entry}
    (hentry : t.entry? (directory ++ names) = some e) (he : ∀ target, e ≠ .link target) :
    t.follow links start (pieces ++ names) = .ok (directory ++ names) := by
  rcases t.exists_follow_append links start pieces with ⟨fault, herror, -⟩ | ⟨l, left, hok, hon⟩
  · cases h.symm.trans herror
  · obtain rfl : directory = l := Except.ok.inj (h.symm.trans hok)
    rw [hon]
    exact follow_of_reached left (walk_names hwf hentry he)

/-! ### Paths -/

theorem follow_of_resolve {here l : Location} {p : Path} (h : t.resolve here p = .ok l) :
    t.follow maxLinks (startOfTarget here p) p.pieces = .ok l := by
  unfold resolve at h
  split at h
  · cases h
  · exact h

theorem pathFault?_of_resolve {here l : Location} {p : Path} (h : t.resolve here p = .ok l) :
    pathFault? p = none ∧ p.text ≠ "" := by
  have hnone : pathFault? p = none := by
    unfold resolve at h
    split at h
    · cases h
    · assumption
  refine ⟨hnone, fun hempty => ?_⟩
  obtain ⟨text⟩ := p
  obtain rfl : text = "" := hempty
  cases hnone

theorem pathFault?_of_long {p : Path} (h : maxPath < p.text.utf8ByteSize) :
    pathFault? p ≠ none := by
  unfold pathFault?
  split
  · simp
  split
  · simp
  · simp

theorem startOfTarget_of_not_isAbsolute {p : Path} (hp : p.isAbsolute = false) (here : Location) :
    startOfTarget here p = here := by
  rw [startOfTarget, hp]
  rfl

/-- Where a piece that names nothing can be followed, one stands in a directory. -/
theorem follow_of_not_isNamed {piece : String} (hpiece : ¬Path.isNamed piece = true) {links : Nat}
    {start l : Location} {rest : List String}
    (h : t.follow links start (piece :: rest) = .ok l) :
    t.isDirectory start = true ∧ t.follow links start rest = .ok l := by
  by_cases hstart : t.isDirectory start = true
  · refine ⟨hstart, ?_⟩
    rw [← h]
    refine (follow_congr links ?_).symm
    rw [walk_of_not_isNamed hpiece, if_pos hstart]
  · rw [follow.eq_def, walk_of_not_isNamed hpiece, if_neg hstart] at h
    cases h

/-- The front of a path leads where the path leads. -/
theorem follow_front {p : Path} {links : Nat} {start l : Location}
    (h : t.follow links start p.pieces = .ok l) : t.follow links start p.front = .ok l := by
  have hslash : ¬Path.isNamed "" = true := by
    decide
  rcases Path.pieces_eq_front p with hfront | hfront
  · rwa [← hfront]
  · rw [hfront] at h
    rcases t.exists_follow_append links start p.front with ⟨e, -, herror⟩ | ⟨l', left, hok, hon⟩
    · rw [herror] at h
      cases h
    · rw [hon] at h
      have hend := (follow_of_not_isNamed hslash h).2
      rw [follow_of_reached left (by rw [walk])] at hend
      rwa [← Except.ok.inj hend]

/-- **The path of a directory leads on to an entry below it,** if the path is not too long. -/
theorem resolve_below (hwf : t.WellFormed) {p : Path} {here directory : Location}
    (h : t.resolveDirectory here p = .ok directory) {names : List String} (hne : names ≠ [])
    {e : Entry} (hentry : t.entry? (directory ++ names) = some e)
    (he : ∀ target, e ≠ .link target) :
    t.resolve here (names.foldl Path.child p) =
      FileFault.guard (pathFault? (names.foldl Path.child p)) (directory ++ names) := by
  have hnames := hwf.isPiece_of_append hentry
  have hstart : startOfTarget here (names.foldl Path.child p) = startOfTarget here p := by
    rw [startOfTarget, Path.isAbsolute_foldl_child p fun name hname => (hnames name hname).1]
    rfl
  have hpieces := Path.pieces_foldl_child (p := p) hne hnames
  have hfront := follow_front (follow_of_resolve (resolveDirectory_eq_ok_iff.1 h).1)
  rw [resolve, hstart, hpieces, follow_append_names hwf hfront hentry he]
  cases pathFault? (names.foldl Path.child p) <;> rfl

theorem list_of_resolve {here l : Location} {p : Path} {fault? : Option FileFault}
    (h : t.resolve here p = FileFault.guard fault? l) (hl : t.isDirectory l = true) :
    t.list here p = FileFault.guard fault? (t.children l) := by
  unfold list resolveDirectory
  rw [h]
  cases fault? with
  | none => simp only [FileFault.guard, hl, if_true]; rfl
  | some fault => rfl

theorem read_of_resolve {here l : Location} {p : Path} {fault? : Option FileFault}
    (h : t.resolve here p = FileFault.guard fault? l) {content : Text.Octets}
    (hl : t.entry? l = some (.file content)) :
    t.read here p = FileFault.guard fault? content := by
  unfold read
  rw [h]
  cases fault? with
  | none => simp only [FileFault.guard, hl]
  | some fault => rfl

/-- The front of a path leads to the directory that the path leads to, dots before it. -/
theorem follow_front_of_join {c : Path} (hc : c.isAbsolute = false) {here directory : Location}
    (h : t.resolveDirectory here (Path.join ⟨"."⟩ c) = .ok directory) :
    t.isDirectory here = true ∧ t.follow maxLinks here c.front = .ok directory := by
  have hdot : ¬Path.isNamed "." = true := by
    decide
  have hjoined : (Path.join ⟨"."⟩ c).pieces = "." :: c.pieces := Path.pieces_join _ hc
  have hfollow := follow_of_resolve (resolveDirectory_eq_ok_iff.1 h).1
  rw [startOfTarget_of_not_isAbsolute (Path.isAbsolute_join _ hc), hjoined] at hfollow
  obtain ⟨hhere, hpieces⟩ := follow_of_not_isNamed hdot hfollow
  exact ⟨hhere, follow_front hpieces⟩

/-- The path of a directory leads on to a file below it, dots before it or not. -/
theorem follow_below (hwf : t.WellFormed) {c : Path} (hc : c.isAbsolute = false)
    {here directory : Location} (h : t.resolveDirectory here (Path.join ⟨"."⟩ c) = .ok directory)
    {names : List String} {content : Text.Octets}
    (hentry : t.entry? (directory ++ names) = some (.file content)) :
    t.follow maxLinks here ((c.front ++ names).dropWhile (!Path.isNamed ·)) =
      .ok (directory ++ names) := by
  obtain ⟨hhere, hfront⟩ := follow_front_of_join hc h
  rw [follow_congr maxLinks (walk_dropWhile hhere _)]
  exact follow_append_names hwf hfront hentry (by simp)

/-- What reading a path comes to if it leads to a file with this content. -/
def textAt (p : Path) (content : Text.Octets) : Except FileFault String :=
  match pathFault? p with
  | some fault => .error fault
  | none => textOf content

theorem readText_of_follow {p : Path} (hp : p.isAbsolute = false) {here l : Location}
    (hfollow : t.follow maxLinks here p.pieces = .ok l) {content : Text.Octets}
    (hentry : t.entry? l = some (.file content)) : t.readText here p = textAt p content := by
  unfold readText read resolve textAt
  rw [startOfTarget_of_not_isAbsolute hp, hfollow]
  cases pathFault? p with
  | some fault => rfl
  | none => simp only [hentry]

/-- **A file below a directory is read by the path of the directory and the names below it,**
whatever else is in the tree. -/
theorem readText_below (hwf : t.WellFormed) {c : Path} (hc : c.isAbsolute = false)
    {here directory : Location} (h : t.resolveDirectory here (Path.join ⟨"."⟩ c) = .ok directory)
    {names : List String} (hne : names ≠ []) {content : Text.Octets}
    (hentry : t.entry? (directory ++ names) = some (.file content)) :
    t.readText here (names.foldl Path.child c).trimmed =
      textAt (names.foldl Path.child c).trimmed content := by
  have hnames : ∀ name ∈ names, IsEntryName name := fun name hname =>
    (hwf.of_entry? hentry).1 name (List.mem_append_right directory hname)
  have hpieces := Path.pieces_foldl_child (p := c) hne fun name hname =>
    ⟨(hnames name hname).2, (hnames name hname).ne_dots.1⟩
  obtain ⟨before, last, rfl⟩ := (List.eq_nil_or_concat' names).resolve_left hne
  have hlast : Path.isNamed last = true := (hnames last (by simp)).isNamed
  rw [← List.append_assoc] at hpieces
  refine readText_of_follow (Path.isAbsolute_trimmed hpieces hlast) ?_ hentry
  rw [Path.pieces_trimmed hpieces hlast, hpieces, List.append_assoc]
  exact follow_below hwf hc h hentry

end FileTree

end AbiGate
