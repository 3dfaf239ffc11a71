/-
# What is not tracked

A source that is a text without a version marker leaves an extraction as it is: nothing is put in,
nothing is asked for, and nothing can fail. So an extraction comes to the same as one of the sources
that matter, those that cannot be opened or are no text and those with a marker. Which ones these
are, and in which order they are taken, is told by the files themselves and the names that lead to
them. Two trees with the same sources that matter have the same snapshot, or fail alike, whatever
else they hold: other files, links, directories that can be listed, or contracts directories at
different places. A directory that cannot be listed does matter, even if there is nothing in it.

Key definitions: `Source.Matters`, `SourceRoot.SameSources`.
Key theorems: `addSource_eq_pure`, `foldlM_addSource_filter`,
`SourceRoot.SameSources.filter_located`, `SourceRoot.SameSources.extract_eq`,
`extraction_eq_of_sameSources`.
-/
import AbiGate.Proofs.Extraction.Progress
import AbiGate.Proofs.Extraction.WalkOrder

namespace AbiGate

variable {s : ExtractionSettings}

/-! ### Sources that matter -/

namespace Source

/-- The source could not be opened or is no text, or has a version marker. -/
def Matters (s : ExtractionSettings) (source : Source) : Prop :=
  (∀ text, source.opened ≠ .content (Text.Utf8.encode text)) ∨ source.HasMarker s

instance (s : ExtractionSettings) : DecidablePred (Matters s) := fun source =>
  decidable_of_iff (source.text.toOption = none ∨ source.HasMarker s) <| by
    simp only [Option.eq_none_iff_forall_ne_some, Ne, toOption_eq_some_iff, text_eq_ok_iff_encode,
      Matters]

/-- What does not matter is passed over. -/
theorem recognize_of_not_matters {source : Source} (root : Path) (h : ¬source.Matters s) :
    source.recognize s root = .ok none := by
  unfold Matters at h
  push Not at h
  exact recognize_eq_ok_none_iff.2 h

end Source

section

variable {m : Type → Type} [Monad m] {root : Path} {inspect : Inspector m}

theorem addSource_eq_pure {source : Source} (h : ¬source.Matters s) (snapshot : Snapshot) :
    addSource s root inspect snapshot source = pure snapshot := by
  unfold addSource
  rw [Source.recognize_of_not_matters root h]

/-- **Sources that do not matter can be left out.** -/
theorem foldlM_addSource_filter [LawfulMonad m] (sources : List Source) (snapshot : Snapshot) :
    (sources.filter (Source.Matters s ·)).foldlM (addSource s root inspect) snapshot =
      sources.foldlM (addSource s root inspect) snapshot := by
  induction sources generalizing snapshot with
  | nil => rfl
  | cons source rest ih =>
    by_cases h : source.Matters s
    · rw [List.filter_cons_of_pos (by simpa using h), List.foldlM_cons, List.foldlM_cons]
      congr 1
      funext between
      exact ih between
    · rw [List.filter_cons_of_neg (by simpa using h), List.foldlM_cons, addSource_eq_pure h,
        pure_bind]
      exact ih snapshot

end

/-! ### Trees with the same sources that matter -/

namespace SourceRoot

/-- At the same names below the contracts directories of two roots there are the same sources that
matter. -/
structure SameSources (s : ExtractionSettings) (r r' : SourceRoot) : Prop where
  /-- The paths of sources start alike. -/
  path_eq : r'.path = r.path
  source_iff : ∀ names source, source.Matters s →
    ((∃ directory, r'.HasSource s directory names source) ↔
      ∃ directory, r.HasSource s directory names source)

variable {r r' : SourceRoot}

theorem pairwise_located (s : ExtractionSettings) (r : SourceRoot) :
    (r.located s).Pairwise fun f f' => f.1 < f'.1 :=
  (r.inOrder_located s).increasing.imp Text.Utf8.map_encode_lt_iff.1

/-- The sources that matter are the same, and in the same order. -/
theorem SameSources.filter_located (h : r.SameSources s r') :
    (r'.located s).filter (fun f => f.2.Matters s) =
      (r.located s).filter fun f => f.2.Matters s := by
  apply SortedMap.eq_of_mem_iff ((pairwise_located s r').filter _)
    ((pairwise_located s r).filter _)
  rintro ⟨names, source⟩
  rw [List.mem_filter, List.mem_filter, mem_located, mem_located]
  by_cases hmatters : source.Matters s
  · rw [h.source_iff names source hmatters]
  · simp [hmatters]

theorem sameSources_iff : r.SameSources s r' ↔ r'.path = r.path ∧
    (r'.located s).filter (fun f => f.2.Matters s) =
      (r.located s).filter fun f => f.2.Matters s := by
  constructor
  · intro h
    exact ⟨h.path_eq, h.filter_located⟩
  · rintro ⟨hpath, hfilter⟩
    refine ⟨hpath, fun names source hmatters => ?_⟩
    have hmem := congrArg ((names, source) ∈ ·) hfilter
    simpa [hmatters, mem_located] using hmem

instance (s : ExtractionSettings) (r r' : SourceRoot) : Decidable (r.SameSources s r') :=
  decidable_of_iff _ sameSources_iff.symm

/-- **Two trees with the same sources that matter cannot be told apart,** whatever inspects the
contracts and in whichever monad it acts. -/
theorem SameSources.extract_eq {m : Type → Type} [Monad m] [LawfulMonad m]
    (h : r.SameSources s r') (inspect : Inspector m) :
    extract s r' inspect = extract s r inspect := by
  have hsources : ∀ r : SourceRoot, (r.sources s).filter (Source.Matters s ·) =
      ((r.located s).filter fun f => f.2.Matters s).map (·.2) := by
    intro r
    rw [← map_snd_located, List.filter_map]
    rfl
  calc extract s r' inspect
      = ((r'.sources s).filter (Source.Matters s ·)).foldlM (addSource s r'.path inspect) .empty :=
        (foldlM_addSource_filter (r'.sources s) .empty).symm
    _ = ((r.sources s).filter (Source.Matters s ·)).foldlM (addSource s r.path inspect) .empty := by
        rw [hsources, hsources, h.filter_located, h.path_eq]
    _ = extract s r inspect := foldlM_addSource_filter (r.sources s) .empty

end SourceRoot

/-- A market with these files and other entries. -/
def marketRoot (entries : List (Location × Entry)) : SourceRoot where
  tree := entries.foldl (fun tree e => tree.put ("market" :: e.1) e.2) .empty
  location := ["market"]
  path := ⟨"/market"⟩

end AbiGate
