/-
# Well-formed file trees

In a well-formed tree every entry has a name that a path can spell, and is in a directory. A tree
that is mounted stays well-formed.

Key definitions: `FileTree.WellFormed`.
Key theorems: `FileTree.WellFormed.isDirectory_of_append`, `FileTree.entry?_mounted`,
`FileTree.WellFormed.mounted`.
-/
import AbiGate.Files.Resolve
import AbiGate.Proofs.Path

namespace AbiGate

/-- A map answers with the first entry under the key. -/
theorem SortedMap.map_find?_toList {κ α : Type} [LT κ] [DecidableLT κ] [DecidableEq κ]
    [StrictTotal κ] (m : SortedMap κ α) (k : κ) :
    (m.toList.find? fun e => e.1 = k).map (·.2) = m.get? k := by
  unfold SortedMap.get?
  induction m.toList with
  | nil => rfl
  | cons e rest ih =>
    unfold SortedMap.lookup
    by_cases h : e.1 = k
    · rw [List.find?_cons_of_pos (by simpa using h), if_pos h.symm]
      rfl
    · rw [List.find?_cons_of_neg (by simpa using h), if_neg (Ne.symm h), ih]

namespace FileTree

/-- Whether a text can be the name of an entry. -/
def IsEntryName (name : String) : Prop :=
  isName name = true ∧ Path.IsPiece name

instance (name : String) : Decidable (IsEntryName name) :=
  inferInstanceAs (Decidable (_ ∧ '/' ∉ name.toList))

namespace IsEntryName

variable {name : String} (h : IsEntryName name)

include h

theorem ne_dots : name ≠ "" ∧ name ≠ "." ∧ name ≠ ".." := by
  have hname := h.1
  simp only [isName, Bool.and_eq_true, decide_eq_true_eq] at hname
  exact ⟨hname.1.1.1, hname.1.1.2, hname.1.2⟩

theorem componentOf? : Path.componentOf? name = some (.entry name) := by
  obtain ⟨hempty, hdot, hdots⟩ := h.ne_dots
  rw [Path.componentOf?, if_neg (by simp [hempty, hdot]), if_neg hdots]

theorem isNamed : Path.isNamed name = true := by
  rw [Path.isNamed, h.componentOf?]
  rfl

end IsEntryName

/-- Every entry has a name, and is in a directory. -/
def WellFormed (t : FileTree) : Prop :=
  ∀ e ∈ t.entries.toList,
    e.1 ≠ [] ∧ (∀ name ∈ e.1, IsEntryName name) ∧ t.isDirectory e.1.dropLast = true

instance (t : FileTree) : Decidable t.WellFormed :=
  inferInstanceAs (Decidable (∀ e ∈ t.entries.toList, _))

namespace WellFormed

variable {t : FileTree}

theorem of_entry? (h : t.WellFormed) {l : Location} {e : Entry} (he : t.entry? l = some e) :
    (∀ name ∈ l, IsEntryName name) ∧ (l ≠ [] → t.isDirectory l.dropLast = true) := by
  by_cases hl : l = []
  · subst hl
    exact ⟨fun name hname => absurd hname List.not_mem_nil, fun hne => absurd rfl hne⟩
  · rw [entry?_of_ne_nil hl] at he
    have hplaced := h (l, e) (SortedMap.get?_eq_some_iff.1 he)
    exact ⟨hplaced.2.1, fun _ => hplaced.2.2⟩

theorem isPiece_of_append (h : t.WellFormed) {directory names : Location} {e : Entry}
    (he : t.entry? (directory ++ names) = some e) :
    ∀ name ∈ names, Path.IsPiece name ∧ name ≠ "" := by
  intro name hname
  have hentry := (h.of_entry? he).1 name (List.mem_append_right directory hname)
  exact ⟨hentry.2, hentry.ne_dots.1⟩

/-- What is above an entry is a directory. The induction is on the names between them. -/
theorem isDirectory_of_append (h : t.WellFormed) {names : List String} {directory : Location}
    {e : Entry} (hne : names ≠ []) (he : t.entry? (directory ++ names) = some e) :
    t.isDirectory directory = true := by
  induction names generalizing directory with
  | nil => exact absurd rfl hne
  | cons name rest ih =>
    rw [List.append_cons] at he
    obtain ⟨e', hfirst⟩ : ∃ e', t.entry? (directory ++ [name]) = some e' := by
      by_cases hrest : rest = []
      · rw [hrest, List.append_nil] at he
        exact ⟨e, he⟩
      · exact ⟨.directory, of_decide_eq_true (ih hrest he)⟩
    have hplaced := (h.of_entry? hfirst).2 (List.concat_ne_nil _ _)
    rwa [List.dropLast_concat] at hplaced

end WellFormed

/-! ### A mounted tree -/

/-- Entries that are set below a directory are found there, the others as before. -/
theorem get?_foldl_set {directory : Location} (hdirectory : directory ≠ []) (l : Location) :
    ∀ {entries : List (Location × Entry)} (t : FileTree),
      entries.Pairwise (fun e e' => e.1 < e'.1) →
      (entries.foldl (fun t e => t.set (directory ++ e.1) e.2) t).entries.get? l =
        ((entries.find? fun e => directory ++ e.1 = l).map (·.2)).or (t.entries.get? l)
  | [], t, _ => rfl
  | e :: rest, t, h => by
    obtain ⟨hfirst, hrest⟩ := List.pairwise_cons.1 h
    rw [List.foldl_cons, get?_foldl_set hdirectory l _ hrest,
      entries_set (List.append_ne_nil_of_left_ne_nil hdirectory _), SortedMap.get?_insert]
    by_cases hl : directory ++ e.1 = l
    · have hnone : (rest.find? fun e' => directory ++ e'.1 = l) = none := by
        rw [List.find?_eq_none]
        intro e' he' heq
        have hsame : e.1 = e'.1 := List.append_cancel_left (hl.trans (of_decide_eq_true heq).symm)
        exact StrictTotal.irrefl _ (hsame ▸ hfirst e' he')
      rw [List.find?_cons_of_pos (by simpa using hl), hnone, if_pos hl.symm]
      rfl
    · rw [List.find?_cons_of_neg (by simpa using hl), if_neg (Ne.symm hl)]

theorem get?_mounted (name : String) (content : FileTree) (l : Location) :
    (mounted name content).entries.get? l =
      ((content.entries.toList.find? fun e => name :: e.1 = l).map (·.2)).or
        (if l = [name] then some .directory else none) := by
  have hroot : ((empty.prune [name]).put [name] .directory).entries.get? l =
      if l = [name] then some .directory else none := by
    rw [put, entries_set (List.cons_ne_nil name []), SortedMap.get?_insert]
    rfl
  rw [mounted, graft, get?_foldl_set (List.cons_ne_nil name []) l _ content.entries.sorted, hroot]
  rfl

theorem get?_mounted_cons (name : String) (content : FileTree) (l : Location) :
    (mounted name content).entries.get? (name :: l) =
      (content.entries.get? l).or (if l = [] then some .directory else none) := by
  rw [get?_mounted, ← SortedMap.map_find?_toList]
  simp

theorem eq_cons_of_get?_mounted {name : String} {content : FileTree} {l : Location} {e : Entry}
    (h : (mounted name content).entries.get? l = some e) : ∃ rest, l = name :: rest := by
  rw [get?_mounted] at h
  rcases hfind : content.entries.toList.find? fun e => name :: e.1 = l with _ | found
  · rw [hfind] at h
    by_cases hl : l = [name]
    · exact ⟨[], hl⟩
    · rw [if_neg hl] at h
      cases h
  · have hfound : name :: found.1 = l := by
      simpa using List.find?_some hfind
    exact ⟨found.1, hfound.symm⟩

theorem WellFormed.get?_nil {t : FileTree} (h : t.WellFormed) : t.entries.get? [] = none := by
  cases hnil : t.entries.get? [] with
  | none => rfl
  | some e => exact absurd rfl (h _ (SortedMap.get?_eq_some_iff.1 hnil)).1

/-- At the name of a mounted tree is what the tree has. -/
theorem entry?_mounted {content : FileTree} (h : content.WellFormed) (name : String)
    (l : Location) : entry? (mounted name content) (name :: l) = content.entry? l := by
  rw [entry?_of_ne_nil (List.cons_ne_nil name l), get?_mounted_cons]
  cases l with
  | nil =>
    rw [h.get?_nil]
    rfl
  | cons first rest =>
    rw [entry?_of_ne_nil (List.cons_ne_nil first rest), if_neg (List.cons_ne_nil first rest),
      Option.or_none]

theorem WellFormed.mounted {content : FileTree} (h : content.WellFormed) {name : String}
    (hname : IsEntryName name) : (mounted name content).WellFormed := by
  rintro ⟨l, e⟩ he
  have hget := SortedMap.get?_eq_some_iff.2 he
  obtain ⟨rest, rfl⟩ := eq_cons_of_get?_mounted hget
  have hentry : content.entry? rest = some e := by
    rw [← entry?_mounted h name, entry?_of_ne_nil (List.cons_ne_nil name rest), hget]
  obtain ⟨hnames, hplaced⟩ := h.of_entry? hentry
  refine ⟨List.cons_ne_nil name rest, List.forall_mem_cons.2 ⟨hname, hnames⟩, ?_⟩
  by_cases hrest : rest = []
  · rw [hrest]
    rfl
  · rw [List.dropLast_cons_of_ne_nil hrest, isDirectory, entry?_mounted h]
    exact hplaced hrest

end FileTree

end AbiGate
