/-
# When an extraction succeeds, and what it then holds

An extraction succeeds exactly if its directories can be listed and its files can be read, if those
with a version marker have a number behind the first one and different names, and if each of them
can be inspected and its listing has well-formed rows only (`Extractable`). The snapshot then has
one contract for each source with a marker and no other, with what its last rows describe
(`Contents`).

Key definitions: `Extractable`, `Contents`.
Key theorems: `extractable_iff_faultless`, `Passes.contents`, `extraction_succeeds_iff`.
-/
import AbiGate.Proofs.Abi.RowGrammar
import AbiGate.Proofs.Abi.VersionLine
import AbiGate.Proofs.Extraction.Faults

namespace AbiGate

/-- The sources have nothing that an extraction refuses. -/
structure Extractable (s : ExtractionSettings) (root : Path) (answer : Listings)
    (sources : List Source) : Prop where
  /-- Each source could be opened and is a text in UTF-8; none is a directory. -/
  readable : ∀ source ∈ sources, ∃ text, source.opened = .content (Text.Utf8.encode text)
  /-- Behind the first marker a number below 2^64 is spelled. -/
  numbered : ∀ source ∈ sources, source.HasMarker s →
    ∃ text number value, ∃ version : UInt64,
      source.opened = .content (Text.Utf8.encode text) ∧
      VersionMarker.FirstValue s.marker.toList (Text.cutLines text.toList) number value ∧
      Text.Spells (Text.trim value) version.toNat
  distinct : ((declared s root sources).map Path.stem).Nodup
  /-- A contract can be inspected, and a row that opens as one of a function or event is one. -/
  listed : ∀ before source after, sources = before ++ source :: after → source.HasMarker s →
    ∃ rows, answer (declared s root before) (source.relative root) = .ok rows ∧
      ∀ row ∈ rows, (∃ kind, Row.Opens row kind) → ∃ i, Row.Describes row i

/-- The snapshot holds what the sources declare. -/
structure Contents (s : ExtractionSettings) (root : Path) (answer : Listings)
    (sources : List Source) (snapshot : Snapshot) : Prop where
  /-- The names are those of the sources with a marker, each one once. -/
  names : snapshot.names.Perm ((declared s root sources).map Path.stem)
  contract : ∀ before source after, sources = before ++ source :: after → source.HasMarker s →
    ∃ rows c, answer (declared s root before) (source.relative root) = .ok rows ∧
      snapshot.get? (source.relative root).stem = some c ∧
      c.path = source.relative root ∧ source.Numbered s root c.version ∧
      ∀ key i, c.identifiers.get? key = some i ↔ Row.Last s.keying rows key i

variable {s : ExtractionSettings} {root : Path} {answer : Listings} {snapshot : Snapshot}
  {before after sources : List Source} {source : Source}

/-! ### What is extractable -/

/-- No source with a marker has the name of one before it. -/
theorem Extractable.free (h : Extractable s root answer (before ++ source :: after))
    (hmarker : source.HasMarker s) :
    ∀ path ∈ declared s root before, path.stem ≠ (source.relative root).stem := by
  intro path hpath
  have hnodup := h.distinct
  have hdeclared : declared s root (source :: after) =
      source.relative root :: declared s root after := by
    rw [← List.singleton_append, declared_append, declared_singleton, if_pos hmarker]
    rfl
  rw [declared_append, hdeclared, List.map_append, List.nodup_append] at hnodup
  exact hnodup.2.2 _ (List.mem_map_of_mem hpath) _ List.mem_cons_self

theorem Extractable.not_fault (h : Extractable s root answer (before ++ source :: after))
    {e : ExtractionError} {asks : List Path} : ¬Fault s root answer before source e asks := by
  have hmem : source ∈ before ++ source :: after := by simp
  intro hfault
  cases hfault with
  | textless htextless =>
    exact Source.forall_not_textless_iff.2 (h.readable source hmem) _ htextless
  | @invalidVersion text invalid hopened hscan =>
    have hmarker : source.HasMarker s := by
      rw [Source.hasMarker_iff_scan_ne hopened, hscan]
      simp
    obtain ⟨other, number, value, version, hother, hvalue⟩ := h.numbered source hmem hmarker
    obtain rfl : text = other :=
      Text.Utf8.encode_injective (Opened.content.inj (hopened.symm.trans hother))
    cases hscan.symm.trans (VersionMarker.scan_eq_ok_some_iff.2 ⟨number, value, hvalue⟩)
  | @duplicate _ first hversion hfirst =>
    have htaken : first ∈ (declared s root before).filter
        (·.stem = (source.relative root).stem) := by simp [hfirst]
    obtain ⟨hbefore, hstem⟩ := List.mem_filter.1 htaken
    exact h.free hversion.hasMarker first hbefore (of_decide_eq_true hstem)
  | inspection hversion _ hlisted =>
    obtain ⟨rows, hrows, -⟩ := h.listed before source after rfl hversion.hasMarker
    cases hlisted.symm.trans hrows
  | @malformedRow _ above below row fault hversion _ hlisted _ hrow =>
    obtain ⟨rows, hrows, hformed⟩ := h.listed before source after rfl hversion.hasMarker
    obtain rfl := Except.ok.inj (hlisted.symm.trans hrows)
    obtain ⟨found, hfound⟩ := Row.exists_read_eq_ok_iff.2 (hformed row (by simp))
    cases hrow.symm.trans hfound

/-! ### What a snapshot holds -/

namespace Passes

/-- A source with a marker put in a contract, by what was listed for it. -/
theorem exists_contract (h : Passes s root answer (before ++ source :: after) snapshot)
    (hmarker : source.HasMarker s) :
    ∃ t rows c, source.recognize s root = .ok (some t) ∧
      answer (declared s root before) (source.relative root) = .ok rows ∧
      t.contract s.keying rows = .ok c ∧
      snapshot.get? (source.relative root).stem = some c := by
  rcases h.yields rfl with hrec | ⟨name, c, ⟨t, rows, hrec, rfl, hrows, hc⟩, hget⟩
  · exact absurd hmarker (Source.recognize_eq_ok_none_iff.1 hrec).2
  · obtain ⟨-, hpath, hname⟩ := Source.recognize_eq_ok_some_iff.1 hrec
    rw [hname, hpath] at hget
    rw [hpath] at hrows
    exact ⟨t, rows, c, hrec, hrows, hc, hget⟩

theorem contents (h : Passes s root answer sources snapshot) :
    Contents s root answer sources snapshot where
  names := h.names_perm
  contract := by
    rintro before source after rfl hmarker
    obtain ⟨t, rows, c, hrec, hrows, hc, hget⟩ := h.exists_contract hmarker
    obtain ⟨hversion, hpath, -⟩ := Source.recognize_eq_ok_some_iff.1 hrec
    refine ⟨rows, c, hrows, hget, ?_, ?_, fun key i => Tracked.get?_contract hc⟩
    · rw [Tracked.contract_path hc, hpath]
    · rwa [Tracked.contract_version hc]

theorem extractable (h : Passes s root answer sources snapshot) :
    Extractable s root answer sources where
  readable := by
    intro source hmem
    obtain ⟨before, after, rfl⟩ := List.append_of_mem hmem
    rcases h.yields rfl with hrec | ⟨name, c, ⟨t, rows, hrec, -⟩, -⟩
    · exact (Source.recognize_eq_ok_none_iff.1 hrec).1
    · obtain ⟨⟨text, hopened, -⟩, -⟩ := Source.recognize_eq_ok_some_iff.1 hrec
      exact ⟨text, hopened⟩
  numbered := by
    intro source hmem hmarker
    obtain ⟨before, after, rfl⟩ := List.append_of_mem hmem
    obtain ⟨t, rows, c, hrec, -⟩ := h.exists_contract hmarker
    obtain ⟨⟨text, hopened, hscan⟩, -⟩ := Source.recognize_eq_ok_some_iff.1 hrec
    obtain ⟨number, value, hvalue⟩ := VersionMarker.scan_eq_ok_some_iff.1 hscan
    exact ⟨text, number, value, t.version, hopened, hvalue⟩
  distinct := h.nodup
  listed := by
    rintro before source after rfl hmarker
    obtain ⟨t, rows, c, -, hrows, hc, -⟩ := h.exists_contract hmarker
    refine ⟨rows, hrows, fun row hrow => ?_⟩
    exact Row.exists_read_eq_ok_iff.1 ((Tracked.contract_eq_ok_iff.1 hc).1 row hrow)

end Passes

/-- **Sources can be extracted exactly if none of them is at fault.** -/
theorem extractable_iff_faultless :
    Extractable s root answer sources ↔ Faultless s root answer sources := by
  constructor
  · rintro h before source after rfl e asks
    exact h.not_fault
  · intro h
    obtain ⟨snapshot, hpasses⟩ := exists_passes_iff.2 h
    exact hpasses.extractable

end AbiGate
