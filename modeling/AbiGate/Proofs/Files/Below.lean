/-
# What is below a directory

What is below a directory is listed in the order of its location as seen from there. In a
well-formed tree this is, child by child, the child and then all that is below it; and nothing is
below what is no directory.

Key theorems: `FileTree.pairwise_below`, `FileTree.below_eq_flatMap`.
-/
import AbiGate.Proofs.Files.WellFormed
import AbiGate.Proofs.Text.OctetOrder

namespace AbiGate

theorem Location.append_lt_append_iff {directory l l' : Location} :
    directory ++ l < directory ++ l' ↔ l < l' :=
  StrictTotal.lt_iff_of_forall_lt fun _ _ => List.append_left_lt

namespace FileTree

variable {t : FileTree} {directory : Location}

/-! ### The order of a walk -/

variable (t directory) in
/-- What is below a directory is listed in the order of the locations, as seen from there. -/
theorem pairwise_below : (t.below directory).Pairwise fun e e' => e.1 < e'.1 := by
  unfold below
  refine List.pairwise_filterMap.2 (t.entries.sorted.imp fun {e e'} hlt b hb b' hb' => ?_)
  obtain ⟨l, hl, rfl⟩ := Option.map_eq_some_iff.1 hb
  obtain ⟨l', hl', rfl⟩ := Option.map_eq_some_iff.1 hb'
  rw [(seenFrom?_eq_some_iff.1 hl).2, (seenFrom?_eq_some_iff.1 hl').2] at hlt
  exact Location.append_lt_append_iff.1 hlt

/-- At and below a directory is what the tree has at its location and at longer ones. -/
theorem mem_cons_below {l : Location} {e : Entry} (h : t.isDirectory directory = true) :
    (l, e) ∈ ([], .directory) :: t.below directory ↔ t.entry? (directory ++ l) = some e := by
  rw [List.mem_cons, mem_below, Prod.mk.injEq]
  by_cases hl : l = []
  · have hentry : t.entry? directory = some .directory := of_decide_eq_true h
    rw [hl, List.append_nil, hentry]
    simp [eq_comm]
  · simp [hl]

variable (t directory) in
theorem pairwise_cons_below :
    (([], .directory) :: t.below directory).Pairwise fun e e' => e.1 < e'.1 := by
  refine List.pairwise_cons.2 ⟨?_, t.pairwise_below directory⟩
  rintro ⟨l, e⟩ he
  obtain ⟨name, rest, rfl⟩ := List.exists_cons_of_ne_nil (mem_below.1 he).1
  exact .nil

/-! ### Child by child -/

theorem mem_children {name : String} {e : Entry} :
    (name, e) ∈ t.children directory ↔ t.entry? (directory ++ [name]) = some e := by
  unfold children
  rw [List.mem_filterMap]
  constructor
  · rintro ⟨⟨l, e'⟩, he, hchild⟩
    split at hchild
    · next first hl =>
      obtain rfl : l = [first] := hl
      obtain ⟨rfl, rfl⟩ := Prod.mk.inj (Option.some.inj hchild)
      exact (mem_below.1 he).2
    · cases hchild
  · intro hentry
    exact ⟨([name], e), mem_below.2 ⟨List.cons_ne_nil name [], hentry⟩, rfl⟩

theorem pairwise_children : (t.children directory).Pairwise fun e e' => e.1 < e'.1 := by
  unfold children
  refine List.pairwise_filterMap.2 ((t.pairwise_below directory).imp ?_)
  rintro ⟨l, e⟩ ⟨l', e'⟩ hlt b hb b' hb'
  split at hb
  · next name hl =>
    split at hb'
    · next name' hl' =>
      obtain rfl : l = [name] := hl
      obtain rfl : l' = [name'] := hl'
      cases hb
      cases hb'
      simpa [List.cons_lt_cons_iff] using hlt
    · cases hb'
  · cases hb

theorem WellFormed.below_eq_nil (hwf : t.WellFormed) (h : ¬t.isDirectory directory = true) :
    t.below directory = [] := by
  rw [List.eq_nil_iff_forall_not_mem]
  rintro ⟨l, e⟩ he
  obtain ⟨hne, hentry⟩ := mem_below.1 he
  exact h (hwf.isDirectory_of_append hne hentry)

/-- A child and all that is below it, as seen from its directory. -/
def underChild (t : FileTree) (directory : Location) (child : String × Entry) :
    List (Location × Entry) :=
  ([child.1], child.2) ::
    (t.below (directory ++ [child.1])).map fun e => (child.1 :: e.1, e.2)

theorem exists_cons_of_mem_underChild {child : String × Entry} {e : Location × Entry}
    (h : e ∈ t.underChild directory child) : ∃ rest, e.1 = child.1 :: rest := by
  rcases List.mem_cons.1 h with rfl | h
  · exact ⟨[], rfl⟩
  · obtain ⟨e', -, rfl⟩ := List.mem_map.1 h
    exact ⟨e'.1, rfl⟩

theorem mem_underChild {child : String × Entry} {l : Location} {e : Entry} :
    (l, e) ∈ t.underChild directory child ↔ (l = [child.1] ∧ e = child.2) ∨
      ∃ rest, rest ≠ [] ∧ l = child.1 :: rest ∧ t.entry? (directory ++ l) = some e := by
  unfold underChild
  rw [List.mem_cons, Prod.mk.injEq, List.mem_map]
  refine or_congr_right ?_
  constructor
  · rintro ⟨⟨rest, e'⟩, he, heq⟩
    obtain ⟨rfl, rfl⟩ := Prod.mk.inj heq
    obtain ⟨hne, hentry⟩ := mem_below.1 he
    exact ⟨rest, hne, rfl, by rwa [List.append_cons]⟩
  · rintro ⟨rest, hne, rfl, hentry⟩
    exact ⟨(rest, e), mem_below.2 ⟨hne, by rwa [← List.append_cons]⟩, rfl⟩

/-- **Below a directory is, child by child, the child and what is below it.** -/
theorem below_eq_flatMap (hwf : t.WellFormed) (directory : Location) :
    t.below directory = (t.children directory).flatMap (t.underChild directory) := by
  apply SortedMap.eq_of_mem_iff (t.pairwise_below directory)
  · rw [List.pairwise_flatMap]
    constructor
    · intro child _
      refine List.pairwise_cons.2 ⟨?_, ?_⟩
      · intro e he
        obtain ⟨⟨rest, e'⟩, he', rfl⟩ := List.mem_map.1 he
        obtain ⟨name, more, rfl⟩ := List.exists_cons_of_ne_nil (mem_below.1 he').1
        have hlonger : [child.1] ++ [] < [child.1] ++ name :: more :=
          Location.append_lt_append_iff.2 .nil
        exact hlonger
      · refine List.pairwise_map.2 ((t.pairwise_below _).imp fun {e e'} hlt => ?_)
        have hbelow : [child.1] ++ e.1 < [child.1] ++ e'.1 :=
          Location.append_lt_append_iff.2 hlt
        exact hbelow
    · refine pairwise_children.imp fun {child child'} hlt e he e' he' => ?_
      obtain ⟨rest, hrest⟩ := exists_cons_of_mem_underChild he
      obtain ⟨rest', hrest'⟩ := exists_cons_of_mem_underChild he'
      rw [hrest, hrest']
      exact .rel hlt
  · rintro ⟨l, e⟩
    rw [mem_below, List.mem_flatMap]
    constructor
    · rintro ⟨hne, hentry⟩
      obtain ⟨name, rest, rfl⟩ := List.exists_cons_of_ne_nil hne
      by_cases hrest : rest = []
      · subst hrest
        exact ⟨(name, e), mem_children.2 hentry, mem_underChild.2 (.inl ⟨rfl, rfl⟩)⟩
      · have hbetween : t.entry? (directory ++ [name]) = some .directory := by
          rw [List.append_cons] at hentry
          exact of_decide_eq_true (hwf.isDirectory_of_append hrest hentry)
        exact ⟨(name, .directory), mem_children.2 hbetween,
          mem_underChild.2 (.inr ⟨rest, hrest, rfl, hentry⟩)⟩
    · rintro ⟨child, hchild, he⟩
      rcases mem_underChild.1 he with ⟨rfl, rfl⟩ | ⟨rest, -, rfl, hentry⟩
      · exact ⟨List.cons_ne_nil _ _, mem_children.1 hchild⟩
      · exact ⟨List.cons_ne_nil _ _, hentry⟩

end FileTree

end AbiGate
