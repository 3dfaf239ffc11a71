/-
# From source trees to the verdict

A comparison of two extracted trees is clean, removals counted, exactly if it should be by what
the trees and the listings say: each contract that the old tree declares is declared by the new
one too, and there it has a greater version, or else each declaration that its listing shows is
shown again, by the last row for it, with the same kind and signature. Neither the walk nor the
reading of a row, nor the maps in between, loses or adds anything.

Key definitions: `Row.Keeps`.
Key theorems: `Row.keeps_iff`, `isClean_compare_extract_iff`.
-/
import AbiGate.Proofs.Comparison.Findings
import AbiGate.Proofs.Extraction.Success

namespace AbiGate

namespace Row

/-- Every declaration of a listing is shown by another listing: of the rows for it, the last ones
agree in kind and signature. -/
def Keeps (before now : List String) : Prop :=
  ∀ line ∈ before, ∀ i, read line = .ok (some i) →
    ∃ old new, Last .signature before i.declaration old ∧
      Last .signature now i.declaration new ∧
      new.kind = old.kind ∧ new.signature = old.signature

theorem eq_declared_of_readColumns {kind : EntryKind} {columns : List (List Char)}
    {i : Identifier} (h : readColumns kind columns = .ok i) :
    i = .declared i.kind i.declaration i.signature := by
  unfold readColumns at h
  cases columns with
  | nil => cases h
  | cons declaration more =>
    simp only at h
    split at h
    · cases h
    · split at h
      · cases h
      · split at h
        · cases h
        · split at h
          · cases h; rfl
          · cases h

/-- A member that a row describes has the name that its declaration shows. -/
theorem eq_declared_of_read {line : String} {i : Identifier} (h : read line = .ok (some i)) :
    i = .declared i.kind i.declaration i.signature := by
  unfold read at h
  split at h
  · split at h
    · cases h
    · next cell columns _ =>
      split at h
      · next kind _ =>
        cases hc : readColumns kind columns with
        | error fault => simp [hc, Except.map] at h
        | ok j =>
          obtain rfl : j = i := by simpa [hc, Except.map] using h
          exact eq_declared_of_readColumns hc
      · cases h
  · cases h

theorem Last.eq_declared {keying : Keying} {rows : List String} {key : String} {i : Identifier}
    (h : Last keying rows key i) : i = .declared i.kind i.declaration i.signature := by
  obtain ⟨_, _, _, _, hread, -⟩ := h
  exact eq_declared_of_read hread

theorem Last.unique {keying : Keying} {rows : List String} {key : String} {i j : Identifier}
    (hi : Last keying rows key i) (hj : Last keying rows key j) : i = j :=
  Option.some.inj ((find?_reverse_eq_some_iff.2 hi).symm.trans (find?_reverse_eq_some_iff.2 hj))

/-- Of the rows with a key, if there are any, one is the last. -/
theorem exists_last (keying : Keying) {rows : List String} {line : String} {i : Identifier}
    (hline : line ∈ rows) (hread : read line = .ok (some i)) :
    ∃ j, Last keying rows (i.key keying) j := by
  have hmem : i ∈ (rows.filterMap member?).reverse :=
    List.mem_reverse.2 (List.mem_filterMap.2 ⟨line, hline, member?_eq_some_iff.2 hread⟩)
  cases hf : (rows.filterMap member?).reverse.find? fun j => j.key keying = i.key keying with
  | some j => exact ⟨j, find?_reverse_eq_some_iff.1 hf⟩
  | none => exact absurd (List.find?_eq_none.1 hf i hmem) (by simp)

/-- **The contracts of two listings hold the same under the old one's keys exactly if the new
listing shows every declaration of the old one.** -/
theorem keeps_iff {t t' : Tracked} {rows rows' : List String} {before now : Contract}
    (hb : t.contract .signature rows = .ok before)
    (hn : t'.contract .signature rows' = .ok now) :
    Keeps rows rows' ↔ ∀ key old, before.identifiers.get? key = some old →
      now.identifiers.get? key = some old := by
  constructor
  · intro h key i hi
    have hlast := (Tracked.get?_contract hb).1 hi
    obtain ⟨above, line, below, hrows, hread, hkey, -⟩ := id hlast
    have hline : line ∈ rows := by rw [hrows]; simp
    obtain ⟨old, new, hold, hnew, hkind, hsignature⟩ := h line hline i hread
    have hkey' : i.declaration = key := hkey
    rw [hkey'] at hold hnew
    obtain rfl : old = i := hold.unique hlast
    have hdeclaration : new.declaration = old.declaration := by
      obtain ⟨_, _, _, _, _, hk, -⟩ := hnew
      exact hk.trans hkey'.symm
    have heq : new = old := by
      rw [hnew.eq_declared, hold.eq_declared, hkind, hsignature, hdeclaration]
    exact (Tracked.get?_contract hn).2 (heq ▸ hnew)
  · intro h line hline i hread
    obtain ⟨old, hold⟩ := exists_last .signature hline hread
    have hnew := (Tracked.get?_contract hn).1 (h _ _ ((Tracked.get?_contract hb).2 hold))
    exact ⟨old, old, hold, hnew, rfl, rfl⟩

end Row

/-! ### Two trees -/

/-- **A clean verdict is what the trees and the listings deserve.** -/
theorem isClean_compare_extract_iff {s : ExtractionSettings} (hs : s.keying = .signature)
    {new old : SourceRoot} {inspectNew inspectOld : Inspector Id} {current baseline : Snapshot}
    (hnew : (extract s new inspectNew).run = Except.ok current)
    (hold : (extract s old inspectOld).run = Except.ok baseline)
    {policy : Policy} (hp : policy.removals = .requireBump) :
    (compare current baseline policy).isClean = true ↔
      ∀ path text, Declares s old path text →
        ∃ path' text', Declares s new path' text' ∧ path'.stem = path.stem ∧
          ((∃ version version', VersionMarker.scan path s.marker text = .ok (some version) ∧
              VersionMarker.scan path' s.marker text' = .ok (some version') ∧
              version < version') ∨
            ∃ rows rows', inspectOld path = .ok rows ∧ inspectNew path' = .ok rows' ∧
              Row.Keeps rows rows') := by
  rw [isClean_iff hp]
  constructor
  · intro h path text hdecl
    obtain ⟨version, rows, before, hbefore⟩ := hdecl.holds hold
    have was : baseline.get? path.stem = some before :=
      (get?_of_extract_run_eq_ok hold).2 ⟨path, text, version, rows, rfl, hbefore⟩
    obtain ⟨now, is, hnow⟩ := h path.stem before was
    obtain ⟨path', text', version', rows', hstem, hholds⟩ := (get?_of_extract_run_eq_ok hnew).1 is
    refine ⟨path', text', hholds.declares, hstem, ?_⟩
    rcases hnow with hlt | hkept
    · rw [hholds.version_eq, hbefore.version_eq] at hlt
      exact .inl ⟨version, version', hbefore.scanned, hholds.scanned, hlt⟩
    · have hkeeps := (Row.keeps_iff (hs ▸ hbefore.contract_eq) (hs ▸ hholds.contract_eq)).2 hkept
      exact .inr ⟨rows, rows', hbefore.inspected, hholds.inspected, hkeeps⟩
  · intro h name before was
    obtain ⟨path, text, version, rows, rfl, hbefore⟩ := (get?_of_extract_run_eq_ok hold).1 was
    obtain ⟨path', text', hdecl', hstem, hor⟩ := h path text hbefore.declares
    obtain ⟨version', rows', now, hnow⟩ := hdecl'.holds hnew
    have is := (get?_of_extract_run_eq_ok hnew).2 ⟨path', text', version', rows', hstem, hnow⟩
    refine ⟨now, is, ?_⟩
    rcases hor with ⟨v, v', hv, hv', hlt⟩ | ⟨l, l', hl, hl', hkeeps⟩
    · obtain rfl : v = version := by simpa [hv] using hbefore.scanned
      obtain rfl : v' = version' := by simpa [hv'] using hnow.scanned
      rw [hbefore.version_eq, hnow.version_eq]
      exact .inl hlt
    · obtain rfl : l = rows := Except.ok.inj (hl.symm.trans hbefore.inspected)
      obtain rfl : l' = rows' := Except.ok.inj (hl'.symm.trans hnow.inspected)
      exact .inr ((Row.keeps_iff (hs ▸ hbefore.contract_eq) (hs ▸ hnow.contract_eq)).1 hkeeps)

/-- A tree with one contract, which declares a version. -/
def vaultTree (version : String) : SourceRoot :=
  let source :=
    "// Vault\n  uint256 public constant ABI_VERSION = " ++ version ++ "; // as released\n"
  { tree := FileTree.empty.put ["tree", "contracts", "core", "Vault.sol"]
      (.file (Text.Utf8.encode source))
    location := ["tree"]
    path := ⟨"/tree"⟩ }

/-- Lists the one contract of the tree; the second row for its function counts. -/
def vaultListing (signature : String) : Inspector Id := fun _ =>
  .ok ["| function | pay(uint256) | 0x0 |", "| error | Late() | 0x9 |",
    "| function | pay(uint256) | " ++ signature ++ " |"]

def vaultSnapshot (version : UInt64) (signature : String) : Snapshot :=
  ⟨.ofList [("Vault",
    { path := ⟨"contracts/core/Vault.sol"⟩
      version
      identifiers := .ofList
        [("pay(uint256)", .declared .function "pay(uint256)" signature)] })]⟩

/-- A new signature without a new version is judged by the trees and the listings. -/
theorem isClean_compare_extract_vault :
    (extract {} (vaultTree "7") (vaultListing "0x2")).run = Except.ok (vaultSnapshot 7 "0x2") ∧
    (extract {} (vaultTree "7") (vaultListing "0x1")).run = Except.ok (vaultSnapshot 7 "0x1") ∧
    ((compare (vaultSnapshot 7 "0x2") (vaultSnapshot 7 "0x1") {}).isClean = true ↔
      ∀ path text, Declares {} (vaultTree "7") path text →
        ∃ path' text', Declares {} (vaultTree "7") path' text' ∧ path'.stem = path.stem ∧
          ((∃ version version',
              VersionMarker.scan path ({} : ExtractionSettings).marker text = .ok (some version) ∧
              VersionMarker.scan path' ({} : ExtractionSettings).marker text' =
                .ok (some version') ∧
              version < version') ∨
            ∃ rows rows', vaultListing "0x1" path = .ok rows ∧
              vaultListing "0x2" path' = .ok rows' ∧ Row.Keeps rows rows')) := by
  have hnew : (extract {} (vaultTree "7") (vaultListing "0x2")).run =
      Except.ok (vaultSnapshot 7 "0x2") := by
    show (_ : Except ExtractionError Snapshot) = _
    decide +kernel
  have hold : (extract {} (vaultTree "7") (vaultListing "0x1")).run =
      Except.ok (vaultSnapshot 7 "0x1") := by
    show (_ : Except ExtractionError Snapshot) = _
    decide +kernel
  exact ⟨hnew, hold, isClean_compare_extract_iff rfl hnew hold rfl⟩

end AbiGate
