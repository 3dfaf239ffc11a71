/-
# Why an extraction fails

A source ends an extraction if it cannot be opened or is no text, if its version is no number, if
its name is taken, if it cannot be inspected, or if a row of its listing is malformed: these are
tested in this order, so that each fault has it that the tests before were passed (`Fault`). The
name of a source is taken if an earlier one declares a contract with that name. An extraction fails
with the fault of the first source that has one, and that may be a directory that cannot be listed.
Until then it has asked for each declared contract, once and in order; for the last one only if its
name was free.

Key definitions: `Fault`, `Faultless`.
Key theorems: `Passes.exists_fault`, `Fault.run_eq`, `progress_eq_error_iff`, `exists_passes_iff`,
`extraction_fails_by_first_fault`.
-/
import AbiGate.Proofs.Extraction.Progress
import AbiGate.Proofs.Extraction.WalkOrder

namespace AbiGate

/-- Behind the sources before it, a source ends an extraction with this error, and makes it ask for
these contracts. -/
inductive Fault (s : ExtractionSettings) (root : Path) (answer : Listings) (before : List Source)
    (source : Source) : ExtractionError → (asks : List Path) → Prop
  | textless {e : ExtractionError} (htextless : source.Textless e) :
      Fault s root answer before source e []
  | invalidVersion {text : String} {invalid : InvalidVersion}
      (hopened : source.opened = .content (Text.Utf8.encode text))
      (hscan : VersionMarker.scan (source.relative root) s.marker text = .error invalid) :
      Fault s root answer before source (.invalidVersion invalid) []
  /-- The name is that of exactly one contract declared before. -/
  | duplicate {version : UInt64} {first : Path} (hversion : source.Numbered s root version)
      (hfirst : (declared s root before).filter (·.stem = (source.relative root).stem) = [first]) :
      Fault s root answer before source
        (.duplicate { name := (source.relative root).stem, first, second := source.relative root })
        []
  | inspection {version : UInt64} {reason : String} (hversion : source.Numbered s root version)
      (hfree : ∀ path ∈ declared s root before, path.stem ≠ (source.relative root).stem)
      (hlisted : answer (declared s root before) (source.relative root) = .error reason) :
      Fault s root answer before source (.inspection (source.relative root) reason)
        [source.relative root]
  /-- The row is the first malformed one. -/
  | malformedRow {version : UInt64} {above below : List String} {row : String} {fault : RowFault}
      (hversion : source.Numbered s root version)
      (hfree : ∀ path ∈ declared s root before, path.stem ≠ (source.relative root).stem)
      (hlisted : answer (declared s root before) (source.relative root) =
        .ok (above ++ row :: below))
      (habove : ∀ other ∈ above, ∃ found, Row.read other = .ok found)
      (hrow : Row.read row = .error fault) :
      Fault s root answer before source
        (.malformedRow { contract := (source.relative root).stem, row, fault })
        [source.relative root]

/-- None of the sources is at fault behind those before it. -/
def Faultless (s : ExtractionSettings) (root : Path) (answer : Listings)
    (sources : List Source) : Prop :=
  ∀ before source after, sources = before ++ source :: after →
    ∀ e asks, ¬Fault s root answer before source e asks

variable {s : ExtractionSettings} {root : Path} {answer : Listings} {snapshot : Snapshot}
  {before sources : List Source} {source : Source} {e : ExtractionError} {asked : List Path}

/-- A source that ends the run is at fault. -/
theorem Passes.exists_fault (h : Passes s root answer before snapshot)
    (hrun : (addSource s root answer.inspector snapshot source).run.run (declared s root before) =
      pure (.error e, asked)) :
    ∃ asks, Fault s root answer before source e asks ∧ asked = declared s root before ++ asks := by
  rcases hrec : source.recognize s root with e' | _ | t
  · rw [addSource_run_of_error hrec] at hrun
    cases hrun
    refine ⟨[], ?_, (List.append_nil _).symm⟩
    rcases Source.recognize_eq_error_iff.1 hrec with htextless | ⟨_, _, hopened, hscan, rfl⟩
    · exact .textless htextless
    · exact .invalidVersion hopened hscan
  · rw [addSource_run_of_untracked hrec] at hrun
    cases hrun
  obtain ⟨hversion, hpath, hname⟩ := Source.recognize_eq_ok_some_iff.1 hrec
  cases htaken : snapshot.get? t.name with
  | some first =>
    rw [addSource_run_of_taken hrec htaken] at hrun
    cases hrun
    refine ⟨[], ?_, (List.append_nil _).symm⟩
    rw [hname, hpath]
    refine .duplicate hversion ?_
    rw [← hpath, ← hname, h.filter_declared, htaken]
    rfl
  | none =>
    rw [addSource_run_of_free hrec htaken] at hrun
    obtain ⟨hsettle, rfl⟩ := Prod.mk.inj hrun
    refine ⟨[t.path], ?_, rfl⟩
    have hfree := h.get?_eq_none_iff.1 htaken
    rw [hname, hpath] at hfree
    rcases settle_eq_error_iff.1 hsettle with
      ⟨reason, hlisted, rfl⟩ | ⟨rows, malformed, hlisted, hmalformed, rfl⟩
    · rw [hpath] at hlisted ⊢
      exact .inspection hversion hfree hlisted
    · obtain ⟨above, row, below, fault, rfl, habove, hrow, rfl⟩ :=
        Row.readAll_eq_error_iff.1 (Tracked.contract_eq_error_iff.1 hmalformed)
      rw [hname]
      rw [hpath] at hlisted ⊢
      exact .malformedRow hversion hfree hlisted habove hrow

/-- A source at fault ends the run, and what it makes it ask for comes last. -/
theorem Fault.run_eq {asks : List Path} (hfault : Fault s root answer before source e asks)
    (h : Passes s root answer before snapshot) :
    (addSource s root answer.inspector snapshot source).run.run (declared s root before) =
      pure (.error e, declared s root before ++ asks) := by
  cases hfault with
  | textless htextless =>
    rw [addSource_run_of_error (Source.recognize_eq_error_iff.2 (.inl htextless)),
      List.append_nil]
  | invalidVersion hopened hscan =>
    rw [addSource_run_of_error
      (Source.recognize_eq_error_iff.2 (.inr ⟨_, _, hopened, hscan, rfl⟩)), List.append_nil]
  | duplicate hversion hfirst =>
    obtain ⟨t, hrec, hpath, hname⟩ := hversion.exists_tracked
    rw [← hpath, ← hname] at hfirst ⊢
    rw [h.filter_declared, Option.toList_eq_singleton_iff, Option.map_eq_some_iff] at hfirst
    obtain ⟨c, htaken, rfl⟩ := hfirst
    rw [addSource_run_of_taken hrec htaken, List.append_nil]
  | inspection hversion hfree hlisted =>
    obtain ⟨t, hrec, hpath, hname⟩ := hversion.exists_tracked
    rw [← hpath] at hfree hlisted ⊢
    rw [← hname] at hfree
    rw [addSource_run_of_free hrec (h.get?_eq_none_iff.2 hfree), hlisted]
    rfl
  | @malformedRow _ above below row fault hversion hfree hlisted habove hrow =>
    obtain ⟨t, hrec, hpath, hname⟩ := hversion.exists_tracked
    rw [← hpath] at hfree hlisted ⊢
    rw [← hname] at hfree ⊢
    have hread : Row.readAll t.name (above ++ row :: below) =
        .error { contract := t.name, row, fault } :=
      Row.readAll_eq_error_iff.2 ⟨above, row, below, fault, rfl, habove, hrow, rfl⟩
    rw [addSource_run_of_free hrec (h.get?_eq_none_iff.2 hfree),
      settle_eq_error_iff.2 (.inr ⟨_, _, hlisted, Tracked.contract_eq_error_iff.2 hread, rfl⟩)]

/-- **Sources fail with the first fault, behind sources that lead to a snapshot.** -/
theorem progress_eq_error_iff :
    progress s root answer sources = (.error e, asked) ↔
      ∃ before source after snapshot asks, sources = before ++ source :: after ∧
        Passes s root answer before snapshot ∧ Fault s root answer before source e asks ∧
        asked = declared s root before ++ asks := by
  induction sources using List.reverseRecOn with
  | nil =>
    refine ⟨fun h => (by cases h), ?_⟩
    rintro ⟨before, source, after, -, -, hsources, -⟩
    simp at hsources
  | append_singleton sources last ih =>
    simp only [concat_eq_append_cons_iff]
    rcases hprogress : progress s root answer sources with ⟨e' | found, earlier⟩
    · rw [progress_concat_of_error hprogress, ← hprogress, ih]
      constructor
      · rintro ⟨before, source, after, snapshot, asks, hsources, h⟩
        exact ⟨before, source, after ++ [last], snapshot, asks, .inr ⟨after, rfl, hsources⟩, h⟩
      · rintro ⟨before, source, after, snapshot, asks, hsplit, hpasses, h⟩
        rcases hsplit with ⟨-, rfl, -⟩ | ⟨rest, -, hsources⟩
        · cases hprogress.symm.trans hpasses.progress_eq
        · exact ⟨before, source, rest, snapshot, asks, hsources, hpasses, h⟩
    · obtain ⟨hpasses, rfl⟩ := progress_eq_ok_iff.1 hprogress
      have hnone : ¬progress s root answer sources = (.error e, asked) := by
        rw [hprogress]
        simp
      rw [ih] at hnone
      rw [progress_concat_of_ok hprogress]
      constructor
      · intro h
        obtain ⟨asks, hfault, hasked⟩ := hpasses.exists_fault h
        exact ⟨sources, last, [], found, asks, .inl ⟨rfl, rfl, rfl⟩, hpasses, hfault, hasked⟩
      · rintro ⟨before, source, after, snapshot, asks, hsplit, hbefore, hfault, hasked⟩
        rcases hsplit with ⟨-, rfl, rfl⟩ | ⟨rest, -, hsources⟩
        · rw [hasked]
          exact hfault.run_eq hpasses
        · exact absurd ⟨before, source, rest, snapshot, asks, hsources, hbefore, hfault, hasked⟩
            hnone

/-- **Sources lead to a snapshot exactly if none of them is at fault.** -/
theorem exists_passes_iff :
    (∃ snapshot, Passes s root answer sources snapshot) ↔ Faultless s root answer sources := by
  constructor
  · rintro ⟨snapshot, h⟩ before source after rfl e asks hfault
    -- behind the sources before it the fault would end the run, unless one of them did
    have hfails : ∃ e' asked', progress s root answer (before ++ source :: after) =
        (.error e', asked') := by
      rcases hbefore : progress s root answer before with ⟨e' | found, asked⟩
      · obtain ⟨first, failed, rest, snapshot', asks', rfl, hrest⟩ :=
          progress_eq_error_iff.1 hbefore
        refine ⟨e', asked, progress_eq_error_iff.2 ⟨first, failed, rest ++ source :: after,
          snapshot', asks', ?_, hrest⟩⟩
        simp
      · obtain ⟨hpasses, -⟩ := progress_eq_ok_iff.1 hbefore
        exact ⟨e, _, progress_eq_error_iff.2
          ⟨before, source, after, found, asks, rfl, hpasses, hfault, rfl⟩⟩
    obtain ⟨e', asked', hfails⟩ := hfails
    cases h.progress_eq.symm.trans hfails
  · intro h
    rcases hprogress : progress s root answer sources with ⟨e | snapshot, asked⟩
    · obtain ⟨before, source, after, _, asks, hsources, -, hfault, -⟩ :=
        progress_eq_error_iff.1 hprogress
      exact absurd hfault (h before source after hsources e asks)
    · exact ⟨snapshot, (progress_eq_ok_iff.1 hprogress).1⟩

/-- What is in `contracts/Till` comes before `contracts/Till.sol`, and that before `contracts/a`,
where a second contract has its name. -/
example :
    let source := .file (Text.Utf8.encode "uint256 public constant ABI_VERSION = 1;")
    let tree := ["Till.sol", "a/Till.sol", "Till/Bank.sol"].foldl (fun tree name =>
      tree.put (["tree", "contracts"] ++ (Path.mk name).pieces) source) FileTree.empty
    extraction {} { tree, location := ["tree"], path := ⟨"/tree"⟩ } (fun _ _ => .ok []) =
      (.error (.duplicate
        { name := "Till", first := ⟨"contracts/Till.sol"⟩, second := ⟨"contracts/a/Till.sol"⟩ }),
      [⟨"contracts/Till/Bank.sol"⟩, ⟨"contracts/Till.sol"⟩]) := by decide +kernel

/-- A market with one stand of this version, behind a directory that may not be listed. -/
def lockedMarket (version : String) : SourceRoot where
  tree := (FileTree.empty.put ["market", "contracts", "Back"] .directory).put
    ["market", "contracts", "Stand.sol"] (.file (Text.Utf8.encode ("VERSION " ++ version)))
  location := ["market"]
  path := ⟨"/market"⟩
  refusal? path := if path = ⟨"/market/contracts/Back"⟩ then some .notPermitted else none

end AbiGate
