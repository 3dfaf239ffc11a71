/-
# The same contracts at another root

What an extraction comes to does not depend on where its root is, nor on what the root holds beside
the contracts: two roots with the same contracts directory have the same snapshot, or fail alike.
Only the path of a source that cannot be read is spelled in full, and so starts with the root.

Key definitions: `SourceRoot.SameContracts`, `SourceRoot.Unrefused`, `Relocated`.
Key theorems: `SourceRoot.forall₂_sources`, `relocated_addSource`, `relocated_extract`.
-/
import AbiGate.Extraction.Extract
import AbiGate.Proofs.Extraction.WalkOrder
import AbiGate.Proofs.Files.Following
import Mathlib.Data.List.Forall2

namespace AbiGate

/-- Two extractions come to the same, except that the path of a source that cannot be read is the
one below either root. -/
inductive Relocated (here there : Path) {α : Type} :
    Except ExtractionError α → Except ExtractionError α → Prop
  | ok (a : α) : Relocated here there (.ok a) (.ok a)
  | unreadable (q : Path) (fault : FileFault) :
      Relocated here there (.error (.unreadable (here.join q) fault))
        (.error (.unreadable (there.join q) fault))
  | error {e : ExtractionError} (h : ∀ path fault, e ≠ .unreadable path fault) :
      Relocated here there (.error e) (.error e)

namespace Relocated

variable {here there : Path} {α β : Type}

theorem refl {x : Except ExtractionError α}
    (h : ∀ path fault, x ≠ .error (.unreadable path fault)) : Relocated here there x x := by
  cases x with
  | ok a => exact .ok a
  | error e => exact .error fun path fault he => h path fault (congrArg Except.error he)

theorem bind {x y : ExceptT ExtractionError Id α} {f g : α → ExceptT ExtractionError Id β}
    (hx : Relocated here there x.run y.run)
    (hf : ∀ a, Relocated here there (f a).run (g a).run) :
    Relocated here there (x >>= f).run (y >>= g).run := by
  rw [ExceptT.run_bind, ExceptT.run_bind]
  generalize x.run = result, y.run = result' at hx
  cases hx with
  | ok a => exact hf a
  | unreadable q fault => exact .unreadable q fault
  | error h => exact .error h

theorem foldlM {σ γ δ : Type} {R : γ → δ → Prop} {f : σ → γ → ExceptT ExtractionError Id σ}
    {g : σ → δ → ExceptT ExtractionError Id σ}
    (hstep : ∀ s a b, R a b → Relocated here there (f s a).run (g s b).run) {as : List γ}
    {bs : List δ} (h : List.Forall₂ R as bs) (s : σ) :
    Relocated here there (as.foldlM f s).run (bs.foldlM g s).run := by
  induction h generalizing s with
  | nil => exact .ok s
  | cons hab _ ih =>
    rw [List.foldlM_cons, List.foldlM_cons]
    exact (hstep s _ _ hab).bind ih

end Relocated

/-! ### One source -/

section

variable {s : ExtractionSettings} {here there q : Path} {inspect inspect' : Inspector Id}

/-- A source is the same file at the same path below either root. -/
structure Source.Moved (here there q : Path) (source source' : Source) : Prop where
  here_eq : source.path = here.join q
  there_eq : source'.path = there.join q
  opened : ∃ octets, source.opened = .content octets ∧ source'.opened = .content octets

variable {source source' : Source}

/-- What a source with this text at this path, as seen from the root, is recognized as. -/
def Source.recognizeText (s : ExtractionSettings) (path : Path) (text : String) :
    Except ExtractionError (Option Tracked) :=
  match VersionMarker.scan path s.marker text with
  | .error e => .error (.invalidVersion e)
  | .ok version => .ok (version.map fun version => { name := path.stem, path, version })

theorem Source.recognize_eq (source : Source) (root : Path) :
    source.recognize s root =
      match source.text with
      | .error e => .error e
      | .ok text => recognizeText s (source.path.relativeTo root) text := rfl

theorem Source.text_of_content {octets : Text.Octets} (h : source.opened = .content octets) :
    source.text = (FileTree.textOf octets).mapError (.unreadable source.path) := by
  unfold Source.text
  rw [h]

theorem Source.recognizeText_ne_unreadable (text : String) (path : Path) (fault : FileFault) :
    recognizeText s q text ≠ .error (.unreadable path fault) := by
  unfold recognizeText
  cases VersionMarker.scan q s.marker text with
  | error e => nofun
  | ok version => nofun

theorem Source.path_of_recognizeText {text : String} {t : Tracked}
    (h : recognizeText s q text = .ok (some t)) : t.path = q := by
  unfold recognizeText at h
  split at h
  · cases h
  · obtain ⟨v, -, rfl⟩ := Option.map_eq_some_iff.1 (Except.ok.inj h)
    rfl

theorem addTracked_congr {t : Tracked} (h : inspect' t.path = inspect t.path)
    (snapshot : Snapshot) : addTracked s inspect' snapshot t = addTracked s inspect snapshot t := by
  unfold addTracked
  rw [h]

theorem addTracked_run_ne_unreadable (snapshot : Snapshot) (t : Tracked) (path : Path)
    (fault : FileFault) :
    (addTracked s inspect snapshot t).run ≠ Except.error (.unreadable path fault) := by
  obtain ⟨answer, hanswer⟩ : ∃ answer, inspect t.path = pure answer := ⟨_, rfl⟩
  unfold addTracked
  split
  · nofun
  · rw [hanswer, liftM_pure, pure_bind]
    split
    · nofun
    split
    · nofun
    split <;> nofun

theorem relocated_addSource (h : source.Moved here there q source') (hhere : here.text ≠ "")
    (hthere : there.text ≠ "") (hq : q.isAbsolute = false)
    (hinspect : inspect' q.trimmed = inspect q.trimmed) (snapshot : Snapshot) :
    Relocated here there (addSource s here inspect snapshot source).run
      (addSource s there inspect' snapshot source').run := by
  obtain ⟨octets, hopened, hopened'⟩ := h.opened
  unfold addSource
  rw [Source.recognize_eq, Source.recognize_eq, Source.text_of_content hopened,
    Source.text_of_content hopened', h.here_eq, h.there_eq, Path.relativeTo_join hhere hq,
    Path.relativeTo_join hthere hq]
  cases FileTree.textOf octets with
  | error fault => exact .unreadable q fault
  | ok text =>
    rw [Except.mapError, Except.mapError]
    rcases hfound : Source.recognizeText s q.trimmed text with e | _ | t
    · have hreadable := Source.recognizeText_ne_unreadable (s := s) (q := q.trimmed) text
      rw [hfound] at hreadable
      simp only [hfound]
      exact .error fun path fault he => hreadable path fault (congrArg Except.error he)
    · simp only [hfound]
      exact .ok snapshot
    · have hsame : inspect' t.path = inspect t.path := by
        rw [Source.path_of_recognizeText hfound, hinspect]
      simp only [hfound, addTracked_congr hsame]
      exact .refl (addTracked_run_ne_unreadable snapshot t)

end

/-! ### All sources -/

namespace SourceRoot

variable {s : ExtractionSettings} {r r' : SourceRoot}

/-- The contracts directory is at the same place under both roots, and holds the same. -/
structure SameContracts (s : ExtractionSettings) (r r' : SourceRoot) : Prop where
  location : r'.contractsLocation? s = r.contractsLocation? s
  below : ∀ directory, r.contractsLocation? s = some directory →
    r'.tree.below directory = r.tree.below directory

/-- A file below the contracts directory, at the path that leads to it from the root. -/
def HasFile (s : ExtractionSettings) (r : SourceRoot) (q : Path) : Prop :=
  ∃ directory names content, r.contractsLocation? s = some directory ∧ names ≠ [] ∧
    r.tree.entry? (directory ++ names) = some (.file content) ∧
    q = names.foldl Path.child s.contractsDir

/-- Every directory can be listed, and every file can be read. -/
def Unrefused (r : SourceRoot) : Prop :=
  ∀ path, r.refusal? path = none

theorem Unrefused.ofRead_offer (h : r.Unrefused) (path : Path) (octets : Text.Octets) :
    Opened.ofRead (r.offer path octets) = .content octets := by
  rw [offer, h path]
  rfl

theorem Unrefused.sourceOf?_directory (h : r.Unrefused) (names : Location) :
    r.sourceOf? s names .directory = none := by
  show (r.refusal? _).map _ = none
  rw [h, Option.map_none]

theorem rel_sourceOf? (hopen : r.Unrefused) (hopen' : r'.Unrefused)
    (hc : s.contractsDir.isAbsolute = false) (hr : r.path.text ≠ "")
    (hr' : r'.path.text ≠ "") {names : Location} (hne : names ≠ [])
    (hnames : ∀ name ∈ names, FileTree.IsEntryName name) {e : Entry}
    {P : Source → Source → Prop}
    (hP : ∀ octets source source', e = .file octets →
      source.Moved r.path r'.path (names.foldl Path.child s.contractsDir) source' →
        P source source') :
    Option.Rel P (r.sourceOf? s names e) (r'.sourceOf? s names e) := by
  have hpieces : ∀ name ∈ names, Path.IsPiece name := fun name hname => (hnames name hname).2
  have hpath : ∀ r : SourceRoot, names.foldl Path.child (r.contractsPath s) =
      r.path.join (names.foldl Path.child s.contractsDir) := fun r =>
    Path.join_foldl_child r.path hc hpieces
  have hnamed : Path.innerComponents (names.foldl Path.child s.contractsDir).pieces ≠ [] := by
    obtain ⟨name, rest, rfl⟩ := List.exists_cons_of_ne_nil hne
    obtain ⟨component, -, hname⟩ :=
      Path.innerComponents_of_isNamed (hnames name List.mem_cons_self).isNamed
    rw [Path.pieces_foldl_child hne fun name hname =>
      ⟨hpieces name hname, (hnames name hname).ne_dots.1⟩, Path.innerComponents_append,
      Path.innerComponents_cons, hname]
    exact List.append_ne_nil_of_right_ne_nil _ (List.cons_ne_nil component _)
  cases e with
  | link target => exact .none
  | directory =>
    rw [hopen.sourceOf?_directory, hopen'.sourceOf?_directory]
    exact .none
  | file octets =>
    unfold sourceOf?
    simp only [hpath, Path.extension?_join hr' hr
      ((Path.isAbsolute_foldl_child _ hpieces).trans hc) hnamed]
    split
    · exact .some (hP octets _ _ rfl
        ⟨rfl, rfl, octets, hopen.ofRead_offer _ octets, hopen'.ofRead_offer _ octets⟩)
    · exact .none

theorem forall₂_sources (hopen : r.Unrefused) (hopen' : r'.Unrefused)
    (hc : s.contractsDir.isAbsolute = false) (hwf : r.tree.WellFormed)
    (hr : r.path.text ≠ "") (hr' : r'.path.text ≠ "") (hsame : r.SameContracts s r') :
    List.Forall₂ (fun source source' => ∃ q, q.isAbsolute = false ∧ r.HasFile s q ∧
      source.Moved r.path r'.path q source') (r.sources s) (r'.sources s) := by
  unfold sources
  rw [hsame.location]
  cases hlocation : r.contractsLocation? s with
  | none => exact .nil
  | some directory =>
    simp only [hsame.below directory hlocation, List.filterMap_cons, hopen.sourceOf?_directory,
      hopen'.sourceOf?_directory]
    refine List.rel_filterMap (R := fun e e' => e = e' ∧ e ∈ r.tree.below directory) ?_
      (List.forall₂_same.2 fun e he => ⟨rfl, he⟩)
    rintro ⟨names, e⟩ _ ⟨rfl, he⟩
    obtain ⟨hne, hentry⟩ := FileTree.mem_below.1 he
    have hnames : ∀ name ∈ names, FileTree.IsEntryName name := fun name hname =>
      (hwf.of_entry? hentry).1 name (List.mem_append_right directory hname)
    refine rel_sourceOf? hopen hopen' hc hr hr' hne hnames
      fun octets source source' hfile hmoved => ?_
    obtain rfl : e = .file octets := hfile
    exact ⟨_, (Path.isAbsolute_foldl_child _ fun name hname => (hnames name hname).2).trans hc,
      ⟨directory, names, octets, hlocation, hne, hentry, rfl⟩, hmoved⟩

end SourceRoot

theorem relocated_extract {s : ExtractionSettings} {r r' : SourceRoot}
    (hopen : r.Unrefused) (hopen' : r'.Unrefused) (hc : s.contractsDir.isAbsolute = false)
    (hwf : r.tree.WellFormed) (hr : r.path.text ≠ "") (hr' : r'.path.text ≠ "")
    (hsame : r.SameContracts s r')
    {inspect inspect' : Inspector Id}
    (hinspect : ∀ q, r.HasFile s q → inspect' q.trimmed = inspect q.trimmed) :
    Relocated r.path r'.path (extract s r inspect).run (extract s r' inspect').run := by
  refine .foldlM (fun snapshot source source' hmoved => ?_)
    (SourceRoot.forall₂_sources hopen hopen' hc hwf hr hr' hsame) _
  obtain ⟨q, hq, hfile, hmoved⟩ := hmoved
  exact relocated_addSource hmoved hr hr' hq (hinspect q hfile) snapshot

end AbiGate
