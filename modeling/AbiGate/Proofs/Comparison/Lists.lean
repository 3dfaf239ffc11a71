/-
# The lists of a comparison

A comparison is read as four lists: the violations, the contracts that have one, the contracts that
were compared and those that are new. Each is strictly increasing, so nothing is listed twice, and
together they account for the names of both snapshots.

The violations are found in the order of the keys that members are held under, and that is not the
order in which they are listed: `pay$()` comes before `pay()`, and `pay` before `pay$`. Only once
they are sorted do those of one contract stand side by side, and then leaving out the repetitions of
a name that follow it leaves each name once.

Key definitions: `Comparison.Accounts`.
Key theorems: `Comparison.pairwise_dropRepeats`, `Comparison.pairwise_violatingContracts`,
`accounts_compare`.
-/
import AbiGate.Proofs.Abi.Outline
import AbiGate.Proofs.Comparison.Order

namespace AbiGate

/-! ### Repetitions -/

namespace Comparison

theorem mem_dropRepeats {a : String} {l : List String} : a ∈ dropRepeats l ↔ a ∈ l := by
  fun_induction dropRepeats l with
  | case1 b rest ih => simp [ih]
  | case2 b c rest hne ih => simp [ih]
  | case3 l _ => rfl

/-- **In an ordered list the repetitions of an item follow it,** so leaving those out leaves each
item once. -/
theorem pairwise_dropRepeats {l : List String} (h : l.Pairwise fun a b => ¬b < a) :
    (dropRepeats l).Pairwise (· < ·) := by
  fun_induction dropRepeats l with
  | case1 b rest ih => exact ih (List.pairwise_cons.1 h).2
  | case2 a b rest hne ih =>
    obtain ⟨ha, hrest⟩ := List.pairwise_cons.1 h
    refine List.pairwise_cons.2 ⟨fun c hc => ?_, ih hrest⟩
    have hlt : a < b := SortedMap.lt_of_not_lt_of_ne (ha b List.mem_cons_self)
      fun heq => hne heq.symm
    rcases List.mem_cons.1 (mem_dropRepeats.1 hc) with rfl | hmem
    · exact hlt
    · by_cases hbc : b = c
      · exact hbc ▸ hlt
      · have hnot : ¬c < b := (List.pairwise_cons.1 hrest).1 c hmem
        exact StrictTotal.trans hlt (SortedMap.lt_of_not_lt_of_ne hnot (Ne.symm hbc))
  | case3 l hl =>
    match l, hl with
    | [], _ => exact .nil
    | [a], _ => exact List.pairwise_singleton _ a
    | a :: b :: rest, hl => exact absurd rfl (hl a b rest)

/-! ### Contracts with a violation -/

variable {current baseline : Snapshot} {policy : Policy}

theorem mem_violatingContracts {d : Comparison} {name : String} :
    name ∈ d.violatingContracts ↔ ∃ v ∈ d.violations, v.contract = name := by
  unfold violatingContracts
  rw [mem_dropRepeats, List.mem_map]

/-- The violations of a contract stand side by side, whether or not their keys differ. -/
theorem pairwise_violatingContracts :
    (compare current baseline policy).violatingContracts.Pairwise (· < ·) := by
  refine pairwise_dropRepeats (List.pairwise_map.2 ?_)
  refine (pairwise_mergeSort_not_lt _).imp fun {v w} hnot hlt => hnot ?_
  exact Violation.sortKey_lt_of_contract_lt hlt

/-! ### Contracts that were compared, and new ones -/

theorem mem_compared {name : String} : name ∈ (compare current baseline policy).compared ↔
    name ∈ current.names ∧ name ∈ baseline.names := by
  show name ∈ baseline.names.filter current.contains ↔ _
  rw [List.mem_filter, ← Snapshot.mem_names, and_comm]

theorem mem_added {name : String} : name ∈ (compare current baseline policy).added ↔
    name ∈ current.names ∧ name ∉ baseline.names := by
  show name ∈ current.names.filter (fun name => !baseline.contains name) ↔ _
  rw [List.mem_filter, Snapshot.mem_names (s := baseline)]
  simp

theorem disjoint_compared_added :
    (compare current baseline policy).compared.Disjoint (compare current baseline policy).added :=
  fun _ hcompared hadded => (mem_added.1 hadded).2 (mem_compared.1 hcompared).2

/-- What is there now was compared or is new. -/
theorem compared_append_added_perm :
    ((compare current baseline policy).compared ++
      (compare current baseline policy).added).Perm current.names := by
  have hcompared : (compare current baseline policy).compared.Nodup :=
    baseline.nodup_names.filter _
  have hadded : (compare current baseline policy).added.Nodup := current.nodup_names.filter _
  rw [List.perm_ext_iff_of_nodup (hcompared.append hadded disjoint_compared_added)
    current.nodup_names]
  intro name
  rw [List.mem_append, mem_compared, mem_added, ← and_or_left]
  exact and_iff_left (em _)

/-- The lists of a comparison are strictly increasing, and they account for the contracts with a
violation and for the names of both snapshots. -/
structure Accounts (d : Comparison) (current baseline : Snapshot) : Prop where
  /-- The order is by contract, then by the member's name, then by its old declaration. -/
  violations_increasing : d.violations.Pairwise fun v w => v.sortKey < w.sortKey
  violating_increasing : d.violatingContracts.Pairwise (· < ·)
  mem_violating : ∀ name, name ∈ d.violatingContracts ↔ ∃ v ∈ d.violations, v.contract = name
  compared_increasing : d.compared.Pairwise (· < ·)
  added_increasing : d.added.Pairwise (· < ·)
  disjoint : d.compared.Disjoint d.added
  /-- What is there now was compared or is new. -/
  current_names : (d.compared ++ d.added).Perm current.names
  /-- What was there before was compared or is missing. -/
  baseline_names :
    (d.compared ++ baseline.names.filter fun name => !current.contains name).Perm baseline.names

end Comparison

/-- The outline of a stand on a market. -/
def standOutline (name : String) (rows : List (EntryKind × String × String)) : Outline :=
  .ofRows ⟨s!"contracts/{name}.sol"⟩ 1 rows

/-- A market with two stands of either keying and one that is gone. -/
def marketBaseline : Snapshot :=
  ⟨.ofList [
    ("Till", (standOutline "Till" [(.event, "Paid(uint256)", "0x3")]).contract .name),
    ("Kiosk", (standOutline "Kiosk" [(.function, "pay()", "0x1"),
      (.function, "pay$()", "0x4")]).contract .signature),
    ("Stall", (standOutline "Stall" []).contract .name)]⟩

end AbiGate
