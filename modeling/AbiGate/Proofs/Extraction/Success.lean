/-
# What a successful extraction holds

Each source either leaves the snapshot as it is or puts one contract into it, under a name that
was free (`addSource_run_eq_ok_iff`). So if an extraction succeeds, every source could be
recognized, and the snapshot holds the contracts of the tracked ones and nothing else.

Key definitions: `Yields`, `Holds`.
Key theorems: `addSource_run_eq_ok_iff`, `foldlM_addSource_run_eq_ok`,
`open_of_extract_run_eq_ok`, `get?_of_extract_run_eq_ok`, `Declares.holds`.
-/
import AbiGate.Proofs.Abi.Listing
import AbiGate.Proofs.Extraction.Tracked

namespace AbiGate

/-- A source is tracked and can be inspected, and this is its contract. -/
def Yields (s : ExtractionSettings) (root : Path) (inspect : Inspector Id) (source : Source)
    (name : String) (c : Contract) : Prop :=
  ∃ t rows, source.recognize s root = .ok (some t) ∧ t.name = name ∧
    inspect t.path = .ok rows ∧ t.contract s.keying rows = .ok c

variable {s : ExtractionSettings} {root : Path} {inspect : Inspector Id}

theorem Yields.unique {source : Source} {name name' : String} {c c' : Contract}
    (h : Yields s root inspect source name c) (h' : Yields s root inspect source name' c') :
    name' = name ∧ c' = c := by
  obtain ⟨t, rows, hrec, rfl, hrows, hc⟩ := h
  obtain ⟨t', rows', hrec', rfl, hrows', hc'⟩ := h'
  obtain rfl : t = t' := Option.some.inj (Except.ok.inj (hrec.symm.trans hrec'))
  obtain rfl : rows = rows' := Except.ok.inj (hrows.symm.trans hrows')
  exact ⟨rfl, Except.ok.inj (hc'.symm.trans hc)⟩

theorem run_bind_eq_ok_iff {ε α β : Type} {x : ExceptT ε Id α} {f : α → ExceptT ε Id β} {b : β} :
    (x >>= f).run = Except.ok b ↔ ∃ a, x.run = Except.ok a ∧ (f a).run = Except.ok b := by
  cases hx : x.run with
  | error e =>
    have hbind : (x >>= f).run = Except.error e := by rw [ExceptT.run_bind, hx]; rfl
    simp [hbind]
  | ok a =>
    have hbind : (x >>= f).run = (f a).run := by rw [ExceptT.run_bind, hx]; rfl
    rw [hbind]
    refine ⟨fun h => ⟨a, rfl, h⟩, ?_⟩
    intro h
    obtain ⟨a', ha, h⟩ := h
    cases ha
    exact h

theorem run_lift_eq_ok_iff {ε α : Type} {x : Id α} {a : α} :
    (liftM x : ExceptT ε Id α).run = Except.ok a ↔ x = a :=
  ⟨fun h => Except.ok.inj h, fun h => congrArg Except.ok h⟩

theorem run_pure_eq_ok_iff {ε α : Type} {a b : α} :
    (pure a : ExceptT ε Id α).run = Except.ok b ↔ b = a :=
  ⟨fun h => (Except.ok.inj h).symm, fun h => congrArg Except.ok h.symm⟩

/-! ### One source -/

theorem addTracked_run_eq_ok_iff {snapshot snapshot' : Snapshot} {t : Tracked} :
    (addTracked s inspect snapshot t).run = Except.ok snapshot' ↔
      snapshot.get? t.name = none ∧ ∃ rows c, inspect t.path = .ok rows ∧
        t.contract s.keying rows = .ok c ∧
        snapshot' = ⟨snapshot.contracts.insert t.name c⟩ := by
  unfold addTracked
  cases hg : snapshot.get? t.name with
  | some first =>
    constructor
    · intro h; cases h
    · rintro ⟨h, -⟩; cases h
  | none =>
    rw [run_bind_eq_ok_iff]
    constructor
    · intro h
      obtain ⟨answer, ha, h⟩ := h
      have hrows := run_lift_eq_ok_iff.1 ha
      cases answer with
      | error reason => cases h
      | ok rows =>
        cases hc : t.contract s.keying rows with
        | error e => simp only [hc] at h; cases h
        | ok c =>
          simp only [hc, Snapshot.insert, hg] at h
          exact ⟨rfl, rows, c, hrows, hc, run_pure_eq_ok_iff.1 h⟩
    · intro h
      obtain ⟨-, rows, c, hrows, hc, rfl⟩ := h
      refine ⟨.ok rows, run_lift_eq_ok_iff.2 hrows, ?_⟩
      simp only [hc, Snapshot.insert, hg]
      rfl

/-- **A source leaves a snapshot alone, or puts in the contract that it yields.** -/
theorem addSource_run_eq_ok_iff {snapshot snapshot' : Snapshot} {source : Source} :
    (addSource s root inspect snapshot source).run = Except.ok snapshot' ↔
      (source.recognize s root = .ok none ∧ snapshot' = snapshot) ∨
      ∃ name c, Yields s root inspect source name c ∧ snapshot.get? name = none ∧
        snapshot' = ⟨snapshot.contracts.insert name c⟩ := by
  unfold addSource Yields
  cases hrec : source.recognize s root with
  | error e =>
    constructor
    · intro h; cases h
    · rintro (⟨h, -⟩ | ⟨_, _, ⟨_, _, h, -⟩, -⟩) <;> cases h
  | ok found =>
    cases found with
    | none =>
      rw [run_pure_eq_ok_iff]
      refine ⟨fun h => .inl ⟨rfl, h⟩, ?_⟩
      rintro (⟨-, h⟩ | ⟨_, _, ⟨_, _, h, -⟩, -⟩)
      · exact h
      · cases h
    | some t =>
      rw [addTracked_run_eq_ok_iff]
      constructor
      · intro h
        obtain ⟨hfree, rows, c, hrows, hc, rfl⟩ := h
        exact .inr ⟨t.name, c, ⟨t, rows, rfl, rfl, hrows, hc⟩, hfree, rfl⟩
      · rintro (⟨h, -⟩ | ⟨_, c, ⟨_, rows, h, rfl, hrows, hc⟩, hfree, rfl⟩)
        · cases h
        · cases h
          exact ⟨hfree, rows, c, hrows, hc, rfl⟩

/-! ### All sources -/

/-- **A run over sources that succeeds has taken each of them, and adds what they yield.** The
induction is on the sources, for every snapshot that the run may start from. -/
theorem foldlM_addSource_run_eq_ok : ∀ {sources : List Source} {snapshot snapshot' : Snapshot},
    (sources.foldlM (addSource s root inspect) snapshot).run = Except.ok snapshot' →
      (∀ source ∈ sources, source.recognize s root = .ok none ∨
        ∃ name c, Yields s root inspect source name c) ∧
      ∀ name c, snapshot'.get? name = some c ↔
        snapshot.get? name = some c ∨ ∃ source ∈ sources, Yields s root inspect source name c
  | [], snapshot, snapshot', h => by
    obtain rfl := run_pure_eq_ok_iff.1 h
    simp
  | source :: rest, snapshot, snapshot', h => by
    rw [List.foldlM_cons, run_bind_eq_ok_iff] at h
    obtain ⟨between, hstep, hrest⟩ := h
    obtain ⟨hall, hget⟩ := foldlM_addSource_run_eq_ok hrest
    rcases addSource_run_eq_ok_iff.1 hstep with ⟨hrec, rfl⟩ | ⟨name, c, hy, hfree, rfl⟩
    · have hnot : ∀ name c, ¬Yields s root inspect source name c := by
        rintro name c ⟨t, rows, ht, -⟩
        rw [hrec] at ht
        cases ht
      refine ⟨List.forall_mem_cons.2 ⟨.inl hrec, hall⟩, fun name c => ?_⟩
      rw [hget]
      simp [hnot]
    · refine ⟨List.forall_mem_cons.2 ⟨.inr ⟨name, c, hy⟩, hall⟩, fun name' c' => ?_⟩
      rw [hget]
      simp only [List.mem_cons, exists_eq_or_imp, ← or_assoc]
      refine or_congr_left ?_
      simp only [Snapshot.get?, SortedMap.get?_insert]
      by_cases hname : name' = name
      · subst hname
        have hno : snapshot.contracts.get? name' = none := hfree
        simp only [↓reduceIte, Option.some.injEq, hno, reduceCtorEq, false_or]
        exact ⟨fun hc => hc ▸ hy, fun hy' => (hy.unique hy').2.symm⟩
      · simp only [hname, ↓reduceIte]
        refine ⟨.inl, ?_⟩
        rintro (h | hy')
        · exact h
        · exact absurd (hy.unique hy').1 hname

/-- A file declares a contract, and can be inspected; this is the contract. -/
structure Holds (s : ExtractionSettings) (r : SourceRoot) (inspect : Inspector Id) (path : Path)
    (text : String) (version : UInt64) (rows : List String) (c : Contract) : Prop where
  declares : Declares s r path text
  scanned : VersionMarker.scan path s.marker text = .ok (some version)
  inspected : inspect path = .ok rows
  contract_eq : Tracked.contract ⟨path.stem, path, version⟩ s.keying rows = .ok c

theorem Holds.version_eq {r : SourceRoot} {path : Path} {text : String} {version : UInt64}
    {rows : List String} {c : Contract} (h : Holds s r inspect path text version rows c) :
    c.version = version :=
  Tracked.contract_version h.contract_eq

/-- A successful extraction could open every source. -/
theorem open_of_extract_run_eq_ok {r : SourceRoot} {snapshot : Snapshot}
    (h : (extract s r inspect).run = Except.ok snapshot) : r.Open s := by
  intro source hmem
  obtain ⟨found, hrec⟩ : ∃ found, source.recognize s r.path = .ok found := by
    rcases (foldlM_addSource_run_eq_ok h).1 source hmem with hrec | ⟨_, _, t, _, hrec, -⟩
    · exact ⟨none, hrec⟩
    · exact ⟨some t, hrec⟩
  obtain ⟨text, _, htext, -⟩ := Source.recognize_eq_ok_iff.1 hrec
  obtain ⟨octets, hopened, -⟩ := Source.text_eq_ok_iff.1 htext
  exact ⟨octets, hopened⟩

theorem exists_yields_iff {r : SourceRoot} (hopen : r.Open s) {name : String} {c : Contract} :
    (∃ source ∈ r.sources s, Yields s r.path inspect source name c) ↔
      ∃ path text version rows, path.stem = name ∧ Holds s r inspect path text version rows c := by
  constructor
  · intro h
    obtain ⟨source, hmem, t, rows, hrec, rfl, hrows, hc⟩ := h
    obtain ⟨text, hdecl, hname, hscan⟩ := (recognized_iff hopen).1 ⟨source, hmem, hrec⟩
    obtain ⟨name, path, version⟩ := t
    obtain rfl : name = path.stem := hname
    exact ⟨path, text, version, rows, rfl, hdecl, hscan, hrows, hc⟩
  · intro h
    obtain ⟨path, text, version, rows, rfl, hdecl, hscan, hrows, hc⟩ := h
    let t : Tracked := ⟨path.stem, path, version⟩
    obtain ⟨source, hmem, hrec⟩ : ∃ source ∈ r.sources s,
        source.recognize s r.path = .ok (some t) :=
      (recognized_iff hopen).2 ⟨text, hdecl, rfl, hscan⟩
    exact ⟨source, hmem, t, rows, hrec, rfl, hrows, hc⟩

/-- **A successful extraction holds the contracts that the files declare,** under the names of
the files. -/
theorem get?_of_extract_run_eq_ok {r : SourceRoot} {snapshot : Snapshot}
    (h : (extract s r inspect).run = Except.ok snapshot) {name : String} {c : Contract} :
    snapshot.get? name = some c ↔
      ∃ path text version rows, path.stem = name ∧ Holds s r inspect path text version rows c := by
  have hnone : Snapshot.empty.get? name = none := rfl
  rw [(foldlM_addSource_run_eq_ok h).2, ← exists_yields_iff (open_of_extract_run_eq_ok h)]
  simp [hnone]

/-- **A successful extraction has taken every file that declares a contract.** -/
theorem Declares.holds {r : SourceRoot} {snapshot : Snapshot} {path : Path} {text : String}
    (hd : Declares s r path text) (h : (extract s r inspect).run = Except.ok snapshot) :
    ∃ version rows c, Holds s r inspect path text version rows c := by
  obtain ⟨source, hmem, rfl, htext⟩ := hd.exists_source (open_of_extract_run_eq_ok h)
  have htaken := (foldlM_addSource_run_eq_ok h).1 source hmem
  rcases htaken with hrec | ⟨name, c, t, rows, hrec, -, hi, hc⟩
  · obtain ⟨text', version, htext', hscan, hfound⟩ := Source.recognize_eq_ok_iff.1 hrec
    obtain rfl := Except.ok.inj (htext.symm.trans htext')
    rw [Option.map_eq_none_iff.1 hfound.symm] at hscan
    exact absurd hscan hd.scan_ne
  · obtain ⟨text', version, htext', hscan, hfound⟩ := Source.recognize_eq_ok_iff.1 hrec
    obtain rfl := Except.ok.inj (htext.symm.trans htext')
    obtain ⟨v, rfl, rfl⟩ := Option.map_eq_some_iff.1 hfound.symm
    exact ⟨v, rows, c, hd, hscan, hi, hc⟩

end AbiGate
