/-
# Taking sources one after the other

An extraction takes the sources one after the other. What inspects a contract may answer by what it
was asked before, and what it is asked is noted (`Listings.inspector`). As long as no source is at
fault, each one leaves the snapshot as it is or puts one contract into it (`Passes`), and it is
asked for each contract that is declared, once and in order.

Key definitions: `Listings`, `extraction`, `Source.HasMarker`, `Source.Textless`, `declared`,
`Passes`.
Key theorems: `Passes.concat`, `progress_eq_ok_iff`, `Passes.filter_declared`, `Passes.yields`.
-/
import AbiGate.Proofs.Extraction.Success
import AbiGate.Proofs.Text.Decoding
import Mathlib.Data.List.Induction

namespace AbiGate

/-! ### Noting what is asked for -/

/-- What is listed for a contract, or why nothing is; it may depend on what was asked for before. -/
abbrev Listings := (asked : List Path) → (contract : Path) → Except String (List String)

namespace Listings

/-- Inspects by the listings, and notes what is asked for. -/
def inspector (answer : Listings) : Inspector (StateM (List Path)) := fun contract => do
  let asked ← get
  set (asked ++ [contract])
  return answer asked contract

/-- Inspects a contract after these were asked for. -/
abbrev after (answer : Listings) (asked : List Path) : Inspector Id :=
  answer asked

end Listings

/-- What an extraction comes to, and what it asked for. -/
def extraction (s : ExtractionSettings) (r : SourceRoot) (answer : Listings) :
    Except ExtractionError Snapshot × List Path :=
  ((extract s r answer.inspector).run.run []).run

/-! ### Declared contracts -/

namespace Source

variable {s : ExtractionSettings} {root : Path} {source : Source}

/-- The path of the source as seen from the root. -/
abbrev relative (root : Path) (source : Source) : Path :=
  source.path.relativeTo root

/-- The source is a text, and one of its lines starts, blanks aside, with the version marker. -/
def HasMarker (s : ExtractionSettings) (source : Source) : Prop :=
  ∃ text, source.opened = .content (Text.Utf8.encode text) ∧
    ∃ line ∈ Text.cutLines text.toList, s.marker.toList <+: Text.trim line

theorem text_eq_ok_iff_encode {text : String} :
    source.text = .ok text ↔ source.opened = .content (Text.Utf8.encode text) := by
  simp only [text_eq_ok_iff, Text.Utf8.decode?_eq_some_iff, exists_eq_right]

instance (s : ExtractionSettings) : DecidablePred (HasMarker s) := fun source =>
  decidable_of_iff (∃ text ∈ source.text.toOption,
    ∃ line ∈ Text.cutLines text.toList, s.marker.toList <+: Text.trim line) <| by
      simp only [HasMarker, Option.mem_def, toOption_eq_some_iff, text_eq_ok_iff_encode]

/-- The source is a text, and this version is scanned from it. -/
def Numbered (s : ExtractionSettings) (root : Path) (source : Source) (version : UInt64) : Prop :=
  ∃ text, source.opened = .content (Text.Utf8.encode text) ∧
    VersionMarker.scan (source.relative root) s.marker text = .ok (some version)

theorem hasMarker_iff_scan_ne {path : Path} {text : String}
    (h : source.opened = .content (Text.Utf8.encode text)) :
    source.HasMarker s ↔ VersionMarker.scan path s.marker text ≠ .ok none := by
  rw [Ne, VersionMarker.scan_eq_ok_none_iff]
  push Not
  constructor
  · rintro ⟨other, hother, hline⟩
    obtain rfl := Text.Utf8.encode_injective (Opened.content.inj (h.symm.trans hother))
    exact hline
  · exact fun hline => ⟨text, h, hline⟩

theorem Numbered.hasMarker {version : UInt64} (h : source.Numbered s root version) :
    source.HasMarker s := by
  obtain ⟨text, hopened, hscan⟩ := h
  rw [hasMarker_iff_scan_ne hopened, hscan]
  simp

theorem recognize_eq_ok_none_iff :
    source.recognize s root = .ok none ↔
      (∃ text, source.opened = .content (Text.Utf8.encode text)) ∧ ¬source.HasMarker s := by
  rw [recognize_eq_ok_iff]
  simp only [text_eq_ok_iff_encode]
  constructor
  · rintro ⟨text, version, hopened, hscan, hversion⟩
    rw [Option.map_eq_none_iff.1 hversion.symm] at hscan
    exact ⟨⟨text, hopened⟩, fun hmarker => (hasMarker_iff_scan_ne hopened).1 hmarker hscan⟩
  · rintro ⟨⟨text, hopened⟩, hmarker⟩
    exact ⟨text, none, hopened, not_not.1 fun hscan =>
      hmarker ((hasMarker_iff_scan_ne hopened).2 hscan), rfl⟩

theorem recognize_eq_ok_some_iff {t : Tracked} :
    source.recognize s root = .ok (some t) ↔
      source.Numbered s root t.version ∧ t.path = source.relative root ∧ t.name = t.path.stem := by
  rw [recognize_eq_ok_iff]
  simp only [text_eq_ok_iff_encode]
  constructor
  · rintro ⟨text, version, hopened, hscan, hversion⟩
    obtain ⟨v, rfl, rfl⟩ := Option.map_eq_some_iff.1 hversion.symm
    refine ⟨⟨text, hopened, hscan⟩, rfl, ?_⟩
    dsimp only
  · rintro ⟨⟨text, hopened, hscan⟩, hpath, hname⟩
    obtain ⟨name, path, version⟩ := t
    obtain rfl : name = path.stem := hname
    obtain rfl : path = source.relative root := hpath
    exact ⟨text, some version, hopened, hscan, rfl⟩

theorem Numbered.exists_tracked {version : UInt64} (h : source.Numbered s root version) :
    ∃ t : Tracked, source.recognize s root = .ok (some t) ∧ t.path = source.relative root ∧
      t.name = t.path.stem := by
  obtain ⟨text, hopened, hscan⟩ := h
  have hrec : source.recognize s root =
      .ok (some ⟨(source.relative root).stem, source.relative root, version⟩) :=
    recognize_eq_ok_iff.2
      ⟨text, some version, text_eq_ok_iff_encode.2 hopened, hscan, rfl⟩
  exact ⟨_, hrec, (recognize_eq_ok_some_iff.1 hrec).2⟩

/-- The source has no text, and this is the error: a file is not UTF-8 or cannot be read, a
directory cannot be listed. -/
inductive Textless (source : Source) : ExtractionError → Prop
  | notText {octets : Text.Octets} (hopened : source.opened = .content octets)
      (hoctets : ∀ text, octets ≠ Text.Utf8.encode text) :
      Textless source (.unreadable source.path .notText)
  | unreadable {fault : FileFault} (hopened : source.opened = .unreadable fault) :
      Textless source (.unreadable source.path fault)
  | unlistable {fault : FileFault} (hopened : source.opened = .unlistable fault) :
      Textless source (.unlistable source.path fault)

theorem text_eq_error_iff {e : ExtractionError} : source.text = .error e ↔ source.Textless e := by
  unfold Source.text
  constructor
  · intro h
    split at h
    · next octets hopened =>
      cases hdecode : Text.Utf8.decode? octets with
      | some text => simp [FileTree.textOf, hdecode, Except.mapError] at h
      | none =>
        obtain rfl : .unreadable source.path .notText = e := by
          simpa [FileTree.textOf, hdecode, Except.mapError] using h
        refine .notText hopened fun text htext => ?_
        cases hdecode.symm.trans (Text.Utf8.decode?_eq_some_iff.2 htext)
    · next hopened => cases h; exact .unreadable hopened
    · next hopened => cases h; exact .unlistable hopened
  · intro h
    cases h with
    | @notText octets hopened hoctets =>
      have hdecode : Text.Utf8.decode? octets = none := by
        rw [Option.eq_none_iff_forall_ne_some]
        exact fun text htext => hoctets text (Text.Utf8.decode?_eq_some_iff.1 htext)
      simp [hopened, FileTree.textOf, hdecode, Except.mapError]
    | unreadable hopened => rw [hopened]
    | unlistable hopened => rw [hopened]

/-- A source is a text unless opening it ends with an error. -/
theorem forall_not_textless_iff :
    (∀ e, ¬source.Textless e) ↔ ∃ text, source.opened = .content (Text.Utf8.encode text) := by
  simp only [← text_eq_error_iff, ← text_eq_ok_iff_encode]
  cases source.text <;> simp

theorem recognize_eq_error_iff {e : ExtractionError} :
    source.recognize s root = .error e ↔ source.Textless e ∨
      ∃ text invalid, source.opened = .content (Text.Utf8.encode text) ∧
        VersionMarker.scan (source.relative root) s.marker text = .error invalid ∧
        e = .invalidVersion invalid := by
  simp only [← text_eq_error_iff, ← text_eq_ok_iff_encode]
  unfold recognize
  cases htext : source.text with
  | error e' => simp
  | ok text =>
    cases hscan : VersionMarker.scan (source.relative root) s.marker text <;>
      simp [hscan, eq_comm]

end Source

/-- The paths of the contracts that the sources declare, as seen from the root. -/
def declared (s : ExtractionSettings) (root : Path) (sources : List Source) : List Path :=
  (sources.filter (Source.HasMarker s ·)).map (Source.relative root)

variable {s : ExtractionSettings} {root : Path} {answer : Listings}

theorem declared_append (sources more : List Source) :
    declared s root (sources ++ more) = declared s root sources ++ declared s root more := by
  simp [declared]

theorem declared_singleton (source : Source) :
    declared s root [source] =
      if source.HasMarker s then [source.relative root] else [] := by
  unfold declared
  split <;> simp [*]

/-! ### One source -/

section

variable {m : Type → Type} [Monad m] {inspect : Inspector m} {snapshot : Snapshot} {t : Tracked}

/-- What a contract with a free name comes to, by what is listed for it. -/
def settle (s : ExtractionSettings) (snapshot : Snapshot) (t : Tracked) :
    Except String (List String) → Except ExtractionError Snapshot
  | .error reason => .error (.inspection t.path reason)
  | .ok rows =>
    match t.contract s.keying rows with
    | .error e => .error (.malformedRow e)
    | .ok c => .ok ⟨snapshot.contracts.insert t.name c⟩

theorem addTracked_run_of_taken {first : Contract} (h : snapshot.get? t.name = some first) :
    (addTracked s inspect snapshot t).run =
      pure (.error (.duplicate { name := t.name, first := first.path, second := t.path })) := by
  unfold addTracked
  simp only [h]
  rfl

theorem run_liftM_bind [LawfulMonad m] {ε α β : Type} (x : m α) (f : α → ExceptT ε m β) :
    ((liftM x : ExceptT ε m α) >>= f).run = x >>= fun a => (f a).run :=
  ExceptT.run_bind_lift x f

/-- A contract with a free name is inspected, and this settles what it comes to. -/
theorem addTracked_run_of_free [LawfulMonad m] (h : snapshot.get? t.name = none) :
    (addTracked s inspect snapshot t).run =
      inspect t.path >>= fun listed => pure (settle s snapshot t listed) := by
  unfold addTracked
  simp only [h, run_liftM_bind]
  congr 1
  funext listed
  unfold settle Snapshot.insert
  cases listed with
  | error reason => rfl
  | ok rows =>
    simp only [h]
    cases t.contract s.keying rows <;> rfl

end

variable {before : List Source} {source : Source} {snapshot : Snapshot} {asked : List Path}

theorem settle_eq_ok_iff {t : Tracked} {listed : Except String (List String)}
    {snapshot' : Snapshot} :
    settle s snapshot t listed = .ok snapshot' ↔ ∃ rows c, listed = .ok rows ∧
      t.contract s.keying rows = .ok c ∧ snapshot' = ⟨snapshot.contracts.insert t.name c⟩ := by
  cases listed with
  | error reason => simp [settle]
  | ok rows => cases hc : t.contract s.keying rows <;> simp [settle, hc, eq_comm]

theorem settle_eq_error_iff {t : Tracked} {listed : Except String (List String)}
    {e : ExtractionError} :
    settle s snapshot t listed = .error e ↔
      (∃ reason, listed = .error reason ∧ e = .inspection t.path reason) ∨
      ∃ rows malformed, listed = .ok rows ∧ t.contract s.keying rows = .error malformed ∧
        e = .malformedRow malformed := by
  cases listed with
  | error reason => simp [settle, eq_comm]
  | ok rows => cases hc : t.contract s.keying rows <;> simp [settle, hc, eq_comm]

theorem addSource_run_of_error {e : ExtractionError} (h : source.recognize s root = .error e) :
    (addSource s root answer.inspector snapshot source).run.run asked =
      pure (.error e, asked) := by
  unfold addSource
  simp only [h]
  rfl

theorem addSource_run_of_untracked (h : source.recognize s root = .ok none) :
    (addSource s root answer.inspector snapshot source).run.run asked =
      pure (.ok snapshot, asked) := by
  unfold addSource
  simp only [h]
  rfl

theorem addSource_run_of_taken {t : Tracked} {first : Contract}
    (h : source.recognize s root = .ok (some t)) (htaken : snapshot.get? t.name = some first) :
    (addSource s root answer.inspector snapshot source).run.run asked =
      pure (.error (.duplicate { name := t.name, first := first.path, second := t.path }),
        asked) := by
  unfold addSource
  simp only [h, addTracked_run_of_taken htaken]
  rfl

theorem addSource_run_of_free {t : Tracked} (h : source.recognize s root = .ok (some t))
    (hfree : snapshot.get? t.name = none) :
    (addSource s root answer.inspector snapshot source).run.run asked =
      pure (settle s snapshot t (answer asked t.path), asked ++ [t.path]) := by
  unfold addSource
  simp only [h, addTracked_run_of_free hfree]
  rfl

/-! ### The sources taken so far -/

/-- What sources come to that are taken one after the other, and what was asked for. -/
def progress (s : ExtractionSettings) (root : Path) (answer : Listings) (sources : List Source) :
    Except ExtractionError Snapshot × List Path :=
  ((sources.foldlM (addSource s root answer.inspector) .empty).run.run []).run

/-- Nothing more is taken after an error, and nothing more is asked for. -/
theorem progress_concat_of_error {e : ExtractionError}
    (h : progress s root answer before = (.error e, asked)) :
    progress s root answer (before ++ [source]) = (.error e, asked) := by
  unfold progress at h ⊢
  rw [List.foldlM_append, ExceptT.run_bind, StateT.run_bind, Id.run_bind, h]
  rfl

theorem progress_concat_of_ok (h : progress s root answer before = (.ok snapshot, asked)) :
    progress s root answer (before ++ [source]) =
      ((addSource s root answer.inspector snapshot source).run.run asked).run := by
  unfold progress at h ⊢
  rw [List.foldlM_append, ExceptT.run_bind, StateT.run_bind, Id.run_bind, h]
  simp

/-- None of the sources is at fault, and they lead to this snapshot. -/
inductive Passes (s : ExtractionSettings) (root : Path) (answer : Listings) :
    List Source → Snapshot → Prop
  | nil : Passes s root answer [] .empty
  | untracked {before : List Source} {source : Source} {snapshot : Snapshot}
      (h : Passes s root answer before snapshot) (hrec : source.recognize s root = .ok none) :
      Passes s root answer (before ++ [source]) snapshot
  | tracked {before : List Source} {source : Source} {snapshot : Snapshot} {name : String}
      {c : Contract} (h : Passes s root answer before snapshot)
      (hyields : Yields s root (answer.after (declared s root before)) source name c)
      (hfree : snapshot.get? name = none) :
      Passes s root answer (before ++ [source]) ⟨snapshot.contracts.insert name c⟩

theorem declared_concat_of_untracked (h : source.recognize s root = .ok none) :
    declared s root (before ++ [source]) = declared s root before := by
  have hmarker : ¬source.HasMarker s := (Source.recognize_eq_ok_none_iff.1 h).2
  rw [declared_append, declared_singleton, if_neg hmarker, List.append_nil]

theorem declared_concat_of_tracked {t : Tracked} (h : source.recognize s root = .ok (some t)) :
    declared s root (before ++ [source]) = declared s root before ++ [t.path] := by
  obtain ⟨hversion, hpath, -⟩ := Source.recognize_eq_ok_some_iff.1 h
  rw [declared_append, declared_singleton, if_pos hversion.hasMarker, hpath]

theorem Passes.progress_eq {sources : List Source} (h : Passes s root answer sources snapshot) :
    progress s root answer sources = (.ok snapshot, declared s root sources) := by
  induction h with
  | nil => rfl
  | untracked h hrec ih =>
    rw [progress_concat_of_ok ih, addSource_run_of_untracked hrec,
      declared_concat_of_untracked hrec]
    rfl
  | tracked h hyields hfree ih =>
    obtain ⟨t, rows, hrec, rfl, hrows, hc⟩ := hyields
    rw [progress_concat_of_ok ih, addSource_run_of_free hrec hfree,
      settle_eq_ok_iff.2 ⟨rows, _, hrows, hc, rfl⟩, declared_concat_of_tracked hrec]
    rfl

/-- A source that ends nothing takes the run one step on, and it is asked for if it is declared. -/
theorem Passes.concat {snapshot' : Snapshot} (h : Passes s root answer before snapshot)
    (hrun : (addSource s root answer.inspector snapshot source).run.run (declared s root before) =
      pure (.ok snapshot', asked)) :
    Passes s root answer (before ++ [source]) snapshot' ∧
      asked = declared s root (before ++ [source]) := by
  rcases hrec : source.recognize s root with e | _ | t
  · rw [addSource_run_of_error hrec] at hrun
    cases hrun
  · rw [addSource_run_of_untracked hrec] at hrun
    cases hrun
    exact ⟨h.untracked hrec, (declared_concat_of_untracked hrec).symm⟩
  cases hfree : snapshot.get? t.name with
  | some first =>
    rw [addSource_run_of_taken hrec hfree] at hrun
    cases hrun
  | none =>
    rw [addSource_run_of_free hrec hfree] at hrun
    obtain ⟨hsettle, rfl⟩ := Prod.mk.inj hrun
    obtain ⟨rows, c, hrows, hc, rfl⟩ := settle_eq_ok_iff.1 hsettle
    exact ⟨h.tracked ⟨t, rows, hrec, rfl, hrows, hc⟩ hfree, (declared_concat_of_tracked hrec).symm⟩

/-- **Sources lead to a snapshot if none of them is at fault, and the declared contracts are then
asked for, each one once and in order.** -/
theorem progress_eq_ok_iff {sources : List Source} :
    progress s root answer sources = (.ok snapshot, asked) ↔
      Passes s root answer sources snapshot ∧ asked = declared s root sources := by
  constructor
  · intro h
    induction sources using List.reverseRecOn generalizing snapshot asked with
    | nil =>
      cases h
      exact ⟨.nil, rfl⟩
    | append_singleton before source ih =>
      rcases hbefore : progress s root answer before with ⟨e | found, earlier⟩
      · cases (progress_concat_of_error hbefore).symm.trans h
      · obtain ⟨hpasses, rfl⟩ := ih hbefore
        rw [progress_concat_of_ok hbefore] at h
        exact hpasses.concat h
  · rintro ⟨h, rfl⟩
    exact h.progress_eq

/-! ### What the snapshot holds -/

/-- A place in a list to which one more is added is the last one, or a place in the list. -/
theorem concat_eq_append_cons_iff {α : Type} {l before after : List α} {a b : α} :
    l ++ [a] = before ++ b :: after ↔
      (after = [] ∧ l = before ∧ a = b) ∨
        ∃ rest, after = rest ++ [a] ∧ l = before ++ b :: rest := by
  rcases List.eq_nil_or_concat' after with rfl | ⟨rest, last, rfl⟩
  · simp
  · constructor
    · intro h
      rw [← List.cons_append, ← List.append_assoc] at h
      obtain ⟨hl, hlast⟩ := List.append_inj' h rfl
      obtain rfl := List.singleton_injective hlast
      exact .inr ⟨rest, rfl, hl⟩
    · rintro (⟨hnil, -⟩ | ⟨rest', hrest, rfl⟩)
      · simp at hnil
      · rw [hrest]
        simp

theorem Snapshot.get?_insert (snapshot : Snapshot) (name other : String) (c : Contract) :
    Snapshot.get? ⟨snapshot.contracts.insert name c⟩ other =
      if other = name then some c else snapshot.get? other :=
  SortedMap.get?_insert ..

namespace Passes

variable {sources : List Source}

/-- Of the declared contracts at most one has a name, and it is the one in the snapshot. -/
theorem filter_declared (h : Passes s root answer sources snapshot) (name : String) :
    (declared s root sources).filter (·.stem = name) =
      ((snapshot.get? name).map (·.path)).toList := by
  induction h with
  | nil => rfl
  | untracked h hrec ih => rw [declared_concat_of_untracked hrec, ih]
  | tracked h hyields hfree ih =>
    obtain ⟨t, rows, hrec, rfl, -, hc⟩ := hyields
    obtain ⟨-, -, hname⟩ := Source.recognize_eq_ok_some_iff.1 hrec
    rw [declared_concat_of_tracked hrec, List.filter_append, ih, Snapshot.get?_insert]
    by_cases hother : name = t.name
    · rw [if_pos hother, hother, hfree]
      simp [← hname, Tracked.contract_path hc]
    · rw [if_neg hother]
      simp [← hname, Ne.symm hother]

theorem get?_eq_none_iff (h : Passes s root answer sources snapshot) {name : String} :
    snapshot.get? name = none ↔ ∀ path ∈ declared s root sources, path.stem ≠ name := by
  have hfilter := h.filter_declared name
  have hnone : (declared s root sources).filter (·.stem = name) = [] ↔
      ∀ path ∈ declared s root sources, path.stem ≠ name := by
    simp [List.filter_eq_nil_iff]
  rw [← hnone, hfilter]
  cases snapshot.get? name <;> simp

/-- The declared contracts have different names. -/
theorem nodup (h : Passes s root answer sources snapshot) :
    ((declared s root sources).map Path.stem).Nodup := by
  induction h with
  | nil => exact .nil
  | untracked h hrec ih => rwa [declared_concat_of_untracked hrec]
  | tracked h hyields hfree ih =>
    obtain ⟨t, rows, hrec, rfl, -, hc⟩ := hyields
    obtain ⟨-, -, hname⟩ := Source.recognize_eq_ok_some_iff.1 hrec
    rw [declared_concat_of_tracked hrec, List.map_append, List.nodup_append]
    refine ⟨ih, by simp, ?_⟩
    simpa [← hname] using h.get?_eq_none_iff.1 hfree

/-- The names in the snapshot are those of the declared contracts. -/
theorem names_perm (h : Passes s root answer sources snapshot) :
    snapshot.names.Perm ((declared s root sources).map Path.stem) := by
  rw [List.perm_ext_iff_of_nodup snapshot.nodup_names h.nodup]
  intro name
  have hmem : name ∈ snapshot.names ↔ ∃ c, snapshot.get? name = some c := by
    simp [Snapshot.names, Snapshot.get?, SortedMap.keys, SortedMap.get?_eq_some_iff]
  rw [hmem, ← Option.ne_none_iff_exists', Ne, h.get?_eq_none_iff]
  simp

/-- Each source was passed over, or put its contract in, and this is still there. -/
theorem yields (h : Passes s root answer sources snapshot) {before after : List Source}
    (hsources : sources = before ++ source :: after) :
    source.recognize s root = .ok none ∨
      ∃ name c, Yields s root (answer.after (declared s root before)) source name c ∧
        snapshot.get? name = some c := by
  induction h generalizing after with
  | nil => simp at hsources
  | untracked h hrec ih =>
    rcases concat_eq_append_cons_iff.1 hsources with ⟨-, rfl, rfl⟩ | ⟨rest, -, hbefore⟩
    · exact .inl hrec
    · exact ih hbefore
  | tracked h hyields hfree ih =>
    rcases concat_eq_append_cons_iff.1 hsources with ⟨-, rfl, rfl⟩ | ⟨rest, -, hbefore⟩
    · exact .inr ⟨_, _, hyields, by rw [Snapshot.get?_insert, if_pos rfl]⟩
    rcases ih hbefore with hrec | ⟨name, c, hc, hget⟩
    · exact .inl hrec
    · refine .inr ⟨name, c, hc, ?_⟩
      rw [Snapshot.get?_insert, if_neg, hget]
      rintro rfl
      cases hfree.symm.trans hget

end Passes

end AbiGate
